import SchemaToJava.Proofs.AllowedErrors
import SchemaToJava.Proofs.Optionality

/-!
The classes to write that are generated for a package: those of the arguments and the state of its
resources, of the arguments of its functions in two variants, and of its object types as they are
requested. Their fields are made of the properties of the package; below the option and the output
that may stand around it, the type of a field is that of its property, read or as an input.
-/
namespace SchemaToJava.Java

open Package Outcome TypeMapper

def ClassRequest.inputClass (r : ClassRequest) (o : ObjectType) : InputClass where
  name := r.name
  description := o.description
  properties := o.propertiesFor r.source.inputShape
  base := if r.source.inputShape then Library.resourceArgs else Library.invokeArgs
  inputless := !r.source.inputShape

/-- The class is one of the classes to write that are generated for the package, given which classes
of object types are requested. -/
inductive IsInputClass (m : TypeMapper) (requested : ClassRequest → Prop) : InputClass → Prop
  | arguments {r : Resource} {c : ResourceClass} : r ∈ Generation.resources m.package →
      ResourceClass.ofResource m r = .ok c →
      IsInputClass m requested (ResourceClass.argumentsClass c.arguments r.inputs)
  | state {r : Resource} {c : ResourceClass} {name : QualifiedName} {properties : List Property} :
      r ∈ Generation.resources m.package → ResourceClass.ofResource m r = .ok c →
      c.state = some name → r.state = some properties →
      IsInputClass m requested (ResourceClass.argumentsClass name properties)
  | functionArguments {f : Package.Function} {s : FunctionSignature} {inputs : List Property} :
      f ∈ m.package.functions → FunctionsClass.signature m f = .ok s → f.inputs = some inputs →
      IsInputClass m requested {
        name := s.arguments
        properties := inputs.map Property.asInput
        base := Library.invokeArgs }
  | plainArguments {f : Package.Function} {s : FunctionSignature} {inputs : List Property} :
      f ∈ m.package.functions → FunctionsClass.signature m f = .ok s → f.inputs = some inputs →
      IsInputClass m requested {
        name := s.plainArguments
        properties := inputs.map Property.asInput
        base := Library.invokeArgs
        inputless := true }
  | object {r : ClassRequest} {o : ObjectType} : requested r → r.direction = .input →
      m.package.object? r.source.token = some o → IsInputClass m requested (r.inputClass o)

variable {m : TypeMapper} {requested : ClassRequest → Prop}

/-- The properties of a class are those of the package as inputs; only a class in which nothing is
an input may have them as they are read. -/
theorem IsInputClass.exists_property {c : InputClass} (h : IsInputClass m requested c)
    {q : Property} (hq : q ∈ c.properties) :
    ∃ p ∈ m.package.allProperties, q = p.asInput ∨ c.inputless = true ∧ q = p := by
  have hlisted {properties : List Property} (hmem : q ∈ properties.map Property.asInput)
      (hall : properties ⊆ m.package.allProperties) :
      ∃ p ∈ m.package.allProperties, q = p.asInput := by
    obtain ⟨p, hp, rfl⟩ := List.mem_map.1 hmem
    exact ⟨p, hall hp, rfl⟩
  cases h with
  | @arguments r c hr hc =>
    obtain ⟨p, hp, heq⟩ := hlisted hq fun p hp =>
      Generation.subset_of_resource hr (by simp [Resource.allProperties, hp])
    exact ⟨p, hp, .inl heq⟩
  | @state r c name properties hr hc hname hproperties =>
    obtain ⟨p, hp, heq⟩ := hlisted hq fun p hp =>
      Generation.subset_of_resource hr (by simp [Resource.allProperties, hproperties, hp])
    exact ⟨p, hp, .inl heq⟩
  | @functionArguments f s inputs hf hs hinputs =>
    obtain ⟨p, hp, heq⟩ := hlisted hq fun p hp =>
      Generation.subset_of_function hf (by simp [Function.allProperties, hinputs, hp])
    exact ⟨p, hp, .inl heq⟩
  | @plainArguments f s inputs hf hs hinputs =>
    obtain ⟨p, hp, heq⟩ := hlisted hq fun p hp =>
      Generation.subset_of_function hf (by simp [Function.allProperties, hinputs, hp])
    exact ⟨p, hp, .inl heq⟩
  | @object r o hr hdirection ho =>
    change q ∈ o.propertiesFor r.source.inputShape at hq
    cases hshape : r.source.inputShape with
    | true =>
      rw [hshape] at hq
      obtain ⟨p, hp, heq⟩ := hlisted hq (Generation.subset_of_object ho)
      exact ⟨p, hp, .inl heq⟩
    | false =>
      rw [hshape] at hq
      have hinputless : (r.inputClass o).inputless = true := by
        simp [ClassRequest.inputClass, hshape]
      exact ⟨q, Generation.subset_of_object ho hq, .inr ⟨hinputless, rfl⟩⟩

def InputClass.shapeOptions (c : InputClass) : ShapeOptions :=
  { input := true, inputless := c.inputless }

/-- The type of a property in a class is that of one of the package's properties. Only where inputs
are kept is it the input shape of it. -/
theorem IsInputClass.exists_typeOf {d : Schema.PackageDocument} (hbind : d.bind = .ok m.package)
    {c : InputClass} (h : IsInputClass m requested c) {q : Property} (hq : q ∈ c.properties) :
    ∃ p ∈ m.package.allProperties, (q = p.asInput ∨ c.inputless = true ∧ q = p) ∧
      ∃ t body, HasType m.package p t ∧
        c.shapeOptions.typeOf q.type = (if q.required then body else .optional body) ∧
        (body = t ∨ body = t.inputShape ∧ c.inputless = false) := by
  obtain ⟨p, hp, hq⟩ := h.exists_property hq
  obtain ⟨t, ht⟩ := exists_hasType (isBound_of_bind hbind) hp
  refine ⟨p, hp, hq, t, ?_⟩
  unfold ShapeOptions.typeOf InputClass.shapeOptions
  dsimp only
  cases hinputless : c.inputless with
  | true =>
    have htype : q.type.plainShape = if q.required then t else .optional t := by
      rcases hq with rfl | ⟨-, rfl⟩
      · exact ht.plainShape_eq.2.trans ht.type_eq
      · exact ht.plainShape_eq.1.trans ht.type_eq
    exact ⟨t, ht, htype, .inl rfl⟩
  | false =>
    obtain rfl : q = p.asInput := by simpa [hinputless] using hq
    refine ⟨_, ht, ht.inputType_eq, ?_⟩
    split
    · exact .inl rfl
    · exact .inr ⟨rfl, rfl⟩

section Core

variable {c : InputClass} {f : Field} {s : TypeShape}

theorem withoutNullable_of_isNullable (h : s.isNullable = false) : s.withoutNullable = s := by
  unfold TypeShape.withoutNullable TypeShape.nullable?
  rw [h]
  rfl

theorem withoutNullable_nullable (h : s.isNullable = false) : s.nullable.withoutNullable = s := by
  have hnullable := isNullable_nullable s
  have hmark : TypeShape.nullableMark ∉ s.annotations := by
    simpa [TypeShape.isNullable] using h
  have hnew : s.nullable = { s with annotations := s.annotations ++ [TypeShape.nullableMark] } := by
    unfold TypeShape.nullable TypeShape.annotated
    rw [if_neg (by simpa using hmark)]
  have hkept : s.annotations.filter (· != TypeShape.nullableMark) = s.annotations :=
    List.filter_eq_self.2 fun mark hmem => bne_iff_ne.2 fun heq => hmark (heq ▸ hmem)
  unfold TypeShape.withoutNullable TypeShape.nullable?
  rw [hnullable, hnew, if_pos rfl, Option.getD_some]
  obtain ⟨base, parameters, annotations⟩ := s
  simpa using hkept

/-- The field has its type from that of its property, without its option: from the type as it is
read, or from its input shape, around which there is an output. -/
inductive HasCore (m : TypeMapper) (c : InputClass) (f : Field) (t : ResolvedType) :
    Mapped → Prop
  | read {core : Mapped} : m.shape c.shapeOptions false t = .ok core →
      InputClass.knownShape f = core.shape → f.shape.base = core.shape.base →
      HasCore m c f t core
  | input {core : Mapped} : c.inputless = false →
      m.shape c.shapeOptions true t.inputElement = .ok core →
      InputClass.knownShape f = core.shape → f.shape.base = Library.output →
      HasCore m c f t core

/-- The field of a property has a core. -/
theorem IsInputClass.exists_core {d : Schema.PackageDocument} (hbind : d.bind = .ok m.package)
    (h : IsInputClass m requested c) {fields : List Field} (hfields : CanGive (c.fields m) fields)
    (hf : f ∈ fields) :
    ∃ p ∈ m.package.allProperties,
      (f.property = p.asInput ∨ c.inputless = true ∧ f.property = p) ∧
      ∃ t, HasType m.package p t ∧ (m.KeepsApart p.type → ∃ core, HasCore m c f t core) := by
  obtain ⟨q, hq, hfield⟩ := canGive_mapM hfields f hf
  obtain ⟨rfl, mapped, hmapped, hshape⟩ := canGive_ofProperty hfield
  obtain ⟨p, hp, hproperty, t, body, ht, htype, hbody⟩ := h.exists_typeOf hbind hq
  refine ⟨p, hp, hproperty, t, ht, fun hk => ?_⟩
  have hk := keepsApart_of_hasType ht hk
  obtain ⟨hopt, hkbody⟩ : (∀ v, ¬ (ResolvedType.optional v).IsNode body) ∧ m.KeepsApart body := by
    rcases hbody with rfl | ⟨rfl, -⟩
    · exact ⟨ht.isNormal.optional, hk⟩
    · exact ⟨ht.isNormal.optional_inputShape, fun token hn =>
        hk token (ht.isNormal.resource_inputShape hn)⟩
  obtain ⟨inner, hinner, hbare, hinnerShape⟩ :=
    exists_inner_of_typeShape hmapped rfl htype hkbody hopt
  have hcanonical : f.shape.withoutNullable = inner.shape := by
    rw [← hshape, hinnerShape]
    split
    · exact withoutNullable_of_isNullable hbare.isNullable
    · exact withoutNullable_nullable hbare.isNullable
  have hbase : f.shape.base = inner.shape.base := by
    rw [← hshape, hinnerShape]
    split
    · rfl
    · exact TypeShape.base_annotated _ _
  have hknown (core : TypeShape) (h : (inner.shape.output?).getD inner.shape = core) :
      InputClass.knownShape f = core := by
    rw [← h, ← hcanonical]
    rfl
  rcases hbody with rfl | ⟨rfl, hinputless⟩
  · have hread := hbare.output ht.isNormal.input
    refine ⟨inner, .read hinner (hknown _ ?_) hbase⟩
    rw [TypeShape.output?, TypeShape.unwrap?_eq_none hread, Option.getD_none]
  · rw [ht.isNormal.inputShape_eq] at hinner hkbody
    rw [TypeMapper.shape, if_neg (by simp [hinputless])] at hinner
    obtain ⟨core, hcore, hinner⟩ := bind_eq_ok.1 hinner
    obtain rfl := pure_eq_ok.1 hinner
    have hkcore : m.KeepsApart t.inputElement := fun token hn => hkbody token (.input hn)
    have hread := (formed_shape hcore hkcore).isKnown (.inr rfl) _ .root
    have houtput : core.shape.output = { base := Library.output, parameters := [core.shape] } := by
      rw [TypeShape.output, if_neg fun his => hread (TypeShape.is_eq_true_iff.1 his)]
    refine ⟨core, .input hinputless hcore (hknown _ ?_) ?_⟩
    · rw [houtput]
      rfl
    · rw [hbase, houtput]

end Core

end SchemaToJava.Java
