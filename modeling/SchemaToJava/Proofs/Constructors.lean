import SchemaToJava.Java.InputClass
import SchemaToJava.Proofs.Emitters

/-!
The constructors of a class to write. One has no parameters, one copies another instance, and one
takes all fields unless there are none. What tells them apart are the classes of their parameters,
so the last two coincide where the only field is of the class itself.
-/
namespace SchemaToJava.Java.InputClass

open Package Outcome

def constructorParameters (c : InputClass) (fields : List Field) : List (List TypeShape) :=
  [[], [.ofClass c.name]] ++ if fields.isEmpty then [] else [fields.map Field.shape]

/-- What tells the constructors apart: the classes of their parameters. -/
def erasedConstructors (c : InputClass) (fields : List Field) : List (List QualifiedName) :=
  (c.constructorParameters fields).map fun parameters => parameters.map TypeShape.base

def DeclaresParameter (f : Field) (parameter : String) : Prop :=
  ∃ type, CanGive (Drafting.code f.shape) type ∧ parameter = "        " ++ (type ++ " " ++ f.ident)

/-- The text declares the constructors: the first two, and the one that takes all fields, of which
there are some. -/
structure DeclaresConstructors (c : InputClass) (fields : List Field) (text : String) : Prop where
  copying : ∃ before after, text = before ++
    sourceLines [s!"    private {c.name.base}() \x7b\x7d", "",
      s!"    private {c.name.base}({c.name.base} $) \x7b"] ++ after
  fromFields : fields ≠ [] → ∃ before parameters after,
    List.Forall₂ DeclaresParameter fields parameters ∧
      text = before ++ (s!"    private {c.name.base}(\n" ++ ",\n".intercalate parameters ++
        ") \x7b\n") ++ after

variable {m : TypeMapper} {c : InputClass} {fields : List Field} {text : String}

theorem DeclaresConstructors.behind (h : DeclaresConstructors c fields text) (front : String) :
    DeclaresConstructors c fields (front ++ text) := by
  constructor
  · obtain ⟨before, after, rfl⟩ := h.copying
    exact ⟨front ++ before, after, by simp only [String.append_assoc]⟩
  · intro hsome
    obtain ⟨before, parameters, after, hparameters, rfl⟩ := h.fromFields hsome
    exact ⟨front ++ before, parameters, after, hparameters, by simp only [String.append_assoc]⟩

theorem exists_of_copyConstructors (name : String) (fields : List Field) :
    ∃ after, copyConstructors name fields = sourceLines [s!"    private {name}() \x7b\x7d", "",
      s!"    private {name}({name} $) \x7b"] ++ after := by
  refine ⟨sourceLines ((fields.map fun f => s!"        this.{f.ident} = $.{f.ident};") ++
    ["    \x7d", ""]), ?_⟩
  unfold copyConstructors sourceLines
  rw [← String.join_append, ← List.map_append, List.append_assoc]

theorem exists_of_fieldsConstructor {name : String}
    (h : CanGive (fieldsConstructor m name fields) text) (hsome : fields ≠ []) :
    ∃ parameters after, List.Forall₂ DeclaresParameter fields parameters ∧
      text = s!"    private {name}(\n" ++ ",\n".intercalate parameters ++ ") \x7b\n" ++ after := by
  unfold fieldsConstructor at h
  rw [if_neg (by simpa using hsome)] at h
  obtain ⟨parameters, hparameters, h⟩ := canGive_bind h
  obtain ⟨assignments, -, h⟩ := canGive_bind h
  obtain rfl := canGive_pure h
  refine ⟨parameters, _, ?_, rfl⟩
  refine (forall₂_of_canGive_mapM hparameters).imp fun f parameter hf => ?_
  obtain ⟨declared, hdeclared, hf⟩ := canGive_bind hf
  obtain rfl := canGive_pure hf
  obtain ⟨type, htype, hdeclared⟩ := canGive_bind hdeclared
  obtain rfl := canGive_pure hdeclared
  exact ⟨type, htype, rfl⟩

/-- The text of a class declares its constructors. -/
theorem declaresConstructors_of_text (h : CanGive (c.text m) text) :
    ∃ fields, CanGive (c.fields m) fields ∧ DeclaresConstructors c fields text := by
  unfold InputClass.text at h
  obtain ⟨fields, hfields, h⟩ := canGive_bind h
  obtain ⟨base, -, h⟩ := canGive_bind h
  obtain ⟨importMarker, -, h⟩ := canGive_bind h
  obtain ⟨declarations, -, h⟩ := canGive_bind h
  obtain ⟨constructor, hconstructor, h⟩ := canGive_bind h
  obtain ⟨builder, -, h⟩ := canGive_bind h
  obtain ⟨before, after, htext⟩ : ∃ before after, text =
      before ++ copyConstructors c.name.base fields ++ constructor ++ after :=
    ⟨_, _, (canGive_pure h).symm.trans (String.append_assoc ..)⟩
  refine ⟨fields, hfields, ⟨?_, fun hsome => ?_⟩⟩
  · obtain ⟨body, hcopying⟩ := exists_of_copyConstructors c.name.base fields
    refine ⟨before, body ++ constructor ++ after, ?_⟩
    rw [htext, hcopying]
    simp only [String.append_assoc]
  · obtain ⟨parameters, body, hparameters, rfl⟩ := exists_of_fieldsConstructor hconstructor hsome
    refine ⟨before ++ copyConstructors c.name.base fields, parameters, body ++ after,
      hparameters, ?_⟩
    rw [htext]
    simp only [String.append_assoc]

/-- The erased parameters of the constructors differ unless the only field is of the class
itself. -/
theorem nodup_erasedConstructors_iff : (c.erasedConstructors fields).Nodup ↔
    ¬ ∃ f, fields = [f] ∧ f.shape.base = c.name := by
  unfold erasedConstructors constructorParameters
  cases fields with
  | nil => simp
  | cons f rest =>
    cases rest with
    | nil => simp [TypeShape.ofClass, eq_comm]
    | cons g rest => simp

end SchemaToJava.Java.InputClass
