import SchemaToJava.Java.TypeMapper
import SchemaToJava.Proofs.InputTypes

/-!
Types as inputs and types without inputs. Both shapes are reached in one step, and where all
arguments are known a type and its input shape are mapped alike. The type of a property is
recovered from its input shape, since binding leaves no inputs in it.
-/
namespace SchemaToJava.Java

open Package Outcome

theorem typeShape_inputShape {m : TypeMapper} {o : ShapeOptions} (ho : o.inputless = true)
    (t : ResolvedType) : m.typeShape t.inputShape o = m.typeShape t o := by
  unfold TypeMapper.typeShape
  rw [if_pos ho, if_pos ho, ResolvedType.plainShape_inputShape]

/-- Making the type an input, and taking inputs away from it, changes nothing a second time. What is
left of the input shape is what is left of the type; it is mapped alike, and for the type of a
property it is the type itself. -/
structure HasStableShapes (t : ResolvedType) : Prop where
  isLater : t.inputShape.isLater = true
  isKnown : t.plainShape.isKnown = true
  input_twice : t.inputShape.inputShape = t.inputShape
  plain_twice : t.plainShape.plainShape = t.plainShape
  plain_of_input : t.inputShape.plainShape = t.plainShape
  mapped : ∀ (m : TypeMapper) (o : ShapeOptions), o.inputless = true →
    m.typeShape t.inputShape o = m.typeShape t o
  ofProperty : ∀ (d : Schema.PackageDocument) (package : Package), d.bind = .ok package →
    ∀ p ∈ package.allProperties, p.type = t → t.inputShape.plainShape = t

/-- Every type has stable shapes. -/
theorem hasStableShapes (t : ResolvedType) : HasStableShapes t where
  isLater := t.isLater_inputShape
  isKnown := t.isKnown_plainShape
  input_twice := t.inputShape_inputShape
  plain_twice := t.plainShape_plainShape
  plain_of_input := t.plainShape_inputShape
  mapped _ _ ho := typeShape_inputShape ho t
  ofProperty d package hbind p hp htype := by
    obtain ⟨body, hbody⟩ := exists_hasType (isBound_of_bind hbind) hp
    rw [← htype, ResolvedType.plainShape_inputShape, hbody.plainShape_eq.1]

/-- An optional list of objects or texts. As an input it may come later; where all arguments are
known it is mapped like the type itself, which is recovered from it. -/
theorem hasStableShapes_of_alternatives :
    let d : Schema.PackageDocument := {
      name := "p"
      types := .ofList [("p:m:O", { object := {} })]
      config := { properties := .ofList [("c", { type := {
        typeName := "array"
        items := some { oneOf := some [{ reference := "#/types/p:m:O" },
          { typeName := "string" }] } } })] } }
    let written (package : Package) (o : ShapeOptions) (t : ResolvedType) : Option String :=
      ((TypeMapper.mk package {} {}).typeShape t o).toOption.map fun mapped =>
        mapped.shape.simpleText
    ∃ package, d.bind = .ok package ∧
      (package.allProperties.map fun p => (written package { input := true } p.type.inputShape,
        written package { input := true, inputless := true } p.type.inputShape)) =
        [(some "Output<List<Either<OArgs,String>>>", some "List<Either<OPlainArgs,String>>")] ∧
      ∀ p ∈ package.allProperties,
        HasStableShapes p.type ∧ p.type.inputShape.plainShape = p.type := by
  intro d written
  have hbound : d.bind.toOption.map (fun package => package.allProperties.map fun p =>
      (written package { input := true } p.type.inputShape,
        written package { input := true, inputless := true } p.type.inputShape)) =
      some [(some "Output<List<Either<OArgs,String>>>",
        some "List<Either<OPlainArgs,String>>")] := by
    decide +kernel
  obtain ⟨package, hpackage, hwritten⟩ := Option.map_eq_some_iff.1 hbound
  have hbind : d.bind = .ok package := toOption_eq_some.1 hpackage
  refine ⟨package, hbind, hwritten, fun p hp => ?_⟩
  have hstable := hasStableShapes p.type
  exact ⟨hstable, hstable.ofProperty d package hbind p hp rfl⟩

end SchemaToJava.Java
