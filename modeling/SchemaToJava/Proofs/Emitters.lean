import SchemaToJava.Proofs.ClassBodies
import SchemaToJava.Proofs.FieldTypes
import SchemaToJava.Proofs.Frames

/-!
Every emitter keeps to every discipline that admits the types of its fields. The texts of fields,
default values and classes are gone through once here, and so are the names that they refer to, all
of which live in packages. Each generated file is then finished from a draft that the frame of the
discipline relates to the empty one.
-/
namespace SchemaToJava.Java

open Package Java.Frame Outcome

def FunctionSignature.argumentNames (s : FunctionSignature) : List QualifiedName :=
  if s.function.inputs.isSome then [s.arguments, s.plainArguments] else []

def FunctionSignature.resultNames (s : FunctionSignature) : List QualifiedName :=
  if s.function.outputs.isSome then [s.result] else []

def FunctionSignature.classNames (s : FunctionSignature) : List QualifiedName :=
  s.argumentNames ++ s.resultNames

def ResourceClass.classNames (c : ResourceClass) : List QualifiedName :=
  c.name :: c.arguments :: c.state.toList

theorem FunctionSignature.map_name_bodies (m : TypeMapper) (s : FunctionSignature) :
    (s.bodies m).map ClassBody.name = s.classNames := by
  unfold bodies argumentBodies resultBodies classNames argumentNames resultNames
  rw [List.map_append]
  cases s.function.inputs <;> cases s.function.outputs <;> rfl

theorem FunctionsClass.map_name_bodies (m : TypeMapper) (name : QualifiedName)
    (signatures : List FunctionSignature) :
    (bodies m name signatures).map ClassBody.name =
      name :: signatures.flatMap FunctionSignature.classNames := by
  unfold bodies
  rw [List.map_cons, List.map_flatMap]
  simp only [FunctionSignature.map_name_bodies]

theorem ResourceClass.map_name_bodies {m : TypeMapper} {r : Resource} {c : ResourceClass}
    (h : ofResource m r = .ok c) : (c.bodies m).map ClassBody.name = c.classNames := by
  obtain ⟨rfl, -, hstate⟩ := ofResource_eq_ok h
  unfold bodies stateBodies classNames
  cases hname : c.state with
  | none => rfl
  | some name =>
    rw [hname, Option.isSome_some, eq_comm, Option.isSome_iff_exists] at hstate
    obtain ⟨properties, hproperties⟩ := hstate
    rw [hproperties]
    rfl

structure FunctionSignature.IsQualified (s : FunctionSignature) : Prop where
  arguments : s.arguments.isQualified = true
  plainArguments : s.plainArguments.isQualified = true
  result : s.result.isQualified = true

/-- The classes in the signature of a function live in packages. -/
theorem FunctionsClass.isQualified_signature {m : TypeMapper} {f : Package.Function}
    {s : FunctionSignature} (h : signature m f = .ok s) : s.IsQualified := by
  obtain ⟨t, -, h⟩ := bind_eq_ok.1 h
  obtain rfl := pure_eq_ok.1 h
  have hmodule := m.isPackage_moduleOfToken t
  constructor
  · dsimp only
    split
    · exact QualifiedName.isQualified_append (hmodule.append _) _
    · rfl
  · dsimp only
    split
    · exact QualifiedName.isQualified_append (hmodule.append _) _
    · rfl
  · dsimp only
    split
    · exact QualifiedName.isQualified_append (hmodule.append _) _
    · rfl

structure ResourceClass.IsQualified (c : ResourceClass) : Prop where
  arguments : c.arguments.isQualified = true
  state : ∀ name, c.state = some name → name.isQualified = true

/-- How the classes of a resource are called. -/
theorem ResourceClass.names_of_ofResource {m : TypeMapper} {r : Resource} {c : ResourceClass}
    (h : ofResource m r = .ok c) : m.resourceClass r.token = .ok c.name ∧
      c.arguments = c.name.sibling (c.name.base ++ "Args") ∧
      ∀ name, c.state = some name → ∃ module, m.modulePackage r.token = .ok module ∧
        name = (module.append inputsSegment).append (c.name.base ++ "State") := by
  obtain ⟨name, hname, h⟩ := bind_eq_ok.1 h
  obtain ⟨state, hstate, h⟩ := bind_eq_ok.1 h
  obtain rfl := pure_eq_ok.1 h
  refine ⟨hname, rfl, ?_⟩
  rintro _ rfl
  cases hr : r.state with
  | none =>
    rw [hr] at hstate
    cases pure_eq_ok.1 hstate
  | some properties =>
    rw [hr, Option.mapM_some, map_eq_pure_bind] at hstate
    obtain ⟨inputs, hinputs, hstate⟩ := bind_eq_ok.1 hstate
    obtain ⟨module, hmodule, hinputs⟩ := bind_eq_ok.1 hinputs
    obtain rfl := pure_eq_ok.1 hinputs
    obtain rfl := Option.some.inj (pure_eq_ok.1 hstate)
    exact ⟨module, hmodule, rfl⟩

theorem ResourceClass.isQualified_ofResource {m : TypeMapper} {r : Resource} {c : ResourceClass}
    (h : ofResource m r = .ok c) : c.IsQualified := by
  obtain ⟨hname, harguments, hstate⟩ := names_of_ofResource h
  refine ⟨?_, fun name hsome => ?_⟩
  · rw [harguments]
    exact QualifiedName.isQualified_sibling (TypeMapper.isQualified_resourceClass hname) _
  · obtain ⟨module, hmodule, rfl⟩ := hstate name hsome
    exact QualifiedName.isQualified_append ((TypeMapper.isPackage_modulePackage hmodule).append _) _

theorem isQualified_primitiveShape (p : Primitive) : (primitiveShape p).IsQualified := by
  cases p <;> exact .ofClass rfl

/-- The elements of an enum with their identifiers, as its class declares them. -/
def EnumClass.declared (e : EnumType) : List (EnumElement × String) :=
  e.elements.zip (identifiers e)

/-- The text of the class of an enum fails only as the declarations of its elements do. -/
theorem DraftFrame.keeps_enumText {m : TypeMapper} (F : DraftFrame m) (owner : QualifiedName)
    (e : EnumType) :
    F.toFrame.Keeps (fun failed => EnumClass.elementsText e (EnumClass.declared e) = .error failed)
      (EnumClass.text owner e) := by
  unfold EnumClass.text
  refine keeps_bind (F.keeps_code (isQualified_primitiveShape _)) fun type => ?_
  refine keeps_bind (F.keeps_reference rfl) fun enumType => ?_
  refine keeps_bind (F.keeps_reference rfl) fun objects => ?_
  refine keeps_bind (F.keeps_reference rfl) fun joiner => ?_
  exact keeps_bind (keeps_lift _) fun elements => keeps_pure _

namespace Discipline

variable {m : TypeMapper} (D : Discipline m)

def AdmitsAll (properties : List Property) : Prop := ∀ p ∈ properties, D.admits p.type

section Fields

theorem keeps_ofProperty {p : Property} (hp : D.admits p.type) (o : ShapeOptions) :
    D.Keeps (Field.ofProperty m o p) := by
  unfold Field.ofProperty
  exact keeps_bind (D.keeps_shape hp o) fun shape => D.keeps_pure _

theorem keeps_parameter {f : Field} (hf : f.shape.IsQualified) : D.Keeps f.parameter := by
  unfold Field.parameter
  exact keeps_bind (D.keeps_code hf) fun type => D.keeps_pure _

end Fields

section Defaults

open DefaultExpression

variable {type : TypeShape}

theorem keeps_literalOr (property expected : String) (found : Json.Value)
    (literal : Option String) : D.Keeps (literalOr property expected found literal) := by
  unfold literalOr
  split
  · exact D.keeps_pure _
  · exact D.keeps_throw rfl rfl rfl

theorem keeps_enumLiteral (e : EnumType) (property : String) (htype : type.IsQualified)
    (value : Json.Value) : D.Keeps (enumLiteral e property type value) := by
  unfold enumLiteral
  dsimp only
  split
  · exact keeps_bind (D.keeps_code htype) fun text => D.keeps_pure _
  · exact D.keeps_throw rfl rfl rfl

theorem keeps_scalarLiteral (property : String) (htype : type.IsQualified) (value : Json.Value) :
    D.Keeps (scalarLiteral m property type value) := by
  unfold scalarLiteral
  split_ifs
  · exact D.keeps_literalOr _ _ _ _
  · exact D.keeps_literalOr _ _ _ _
  · exact D.keeps_literalOr _ _ _ _
  · exact D.keeps_literalOr _ _ _ _
  · exact keeps_bind (D.keeps_reference rfl) fun parser => D.keeps_pure _
  · split
    · exact D.keeps_enumLiteral _ _ htype _
    · exact D.keeps_throw rfl rfl rfl

/-- Resolving a default keeps to the discipline. -/
theorem keeps_resolve (property : String) (htype : type.IsQualified) (value : Json.Value) :
    D.Keeps (resolve m property type value) := by
  unfold resolve
  split
  · exact keeps_bind (D.keeps_scalarLiteral property htype value) fun literal => D.keeps_pure _
  · next left right halternatives =>
    obtain ⟨hleft, hright⟩ := htype.alternatives halternatives
    refine keeps_bind (D.keeps_reference rfl) fun either => ?_
    -- the failures of both attempts are caught, and one that tells of both takes their place
    have hfirst := keeps_bind (D.strict.keeps_scalarLiteral property hleft value) fun literal =>
      D.strict.keeps_pure (left, s!"{either}.ofLeft({literal})")
    have hsecond := keeps_bind (D.strict.keeps_scalarLiteral property hright value) fun literal =>
      D.strict.keeps_pure (right, s!"{either}.ofRight({literal})")
    refine D.keeps_of_strict (keeps_tryCatch hfirst fun first hfailed =>
      keeps_tryCatch hsecond fun second hfailed' => D.strict.keeps_throw rfl ?_ rfl)
    exact Bool.or_eq_false_iff.2 ⟨hfailed.2.1, hfailed'.2.1⟩

theorem keeps_literal (property : String) (htype : type.IsQualified) (value : Json.Value) :
    D.Keeps (literal m property type value) := by
  unfold literal
  exact keeps_bind (D.keeps_resolve property htype value) fun resolved => D.keeps_pure _

theorem keeps_accessor (property : String) (htype : type.IsQualified) :
    D.Keeps (accessor property type) := by
  unfold accessor
  refine keeps_bind (D.keeps_reference rfl) fun codegen => ?_
  dsimp only
  split_ifs
  · exact D.keeps_pure _
  · exact D.keeps_pure _
  · exact D.keeps_pure _
  · exact D.keeps_pure _
  · exact keeps_bind (D.keeps_descriptor htype) fun descriptor => D.keeps_pure _

theorem keeps_parameterExpression (name : String) (required : Bool) :
    D.Keeps (parameterExpression name required) := by
  unfold parameterExpression
  split
  · exact keeps_bind (D.keeps_reference rfl) fun objects => D.keeps_pure _
  · exact D.keeps_pure _

/-- The expression for a property keeps to the discipline. -/
theorem keeps_value (p : Property) {target : TypeShape} (htarget : target.IsQualified)
    (source : ValueSource) : D.Keeps (value m p target source) := by
  unfold value
  split
  · exact D.keeps_parameterExpression _ _
  · unfold resolvingExpression
    dsimp only
    have htype := ((htarget.withoutNullable.unwrap_getD Library.optional).unwrap_getD
      Library.output).withoutAnnotations
    refine keeps_bind_of_canGive (keeps_optionMapM (fun v => D.keeps_resolve _ htype v) _)
      fun literal hliteral => ?_
    refine keeps_bind (D.keeps_accessor _ ?_) fun call => D.keeps_pure _
    cases literal with
    | none => exact htype
    | some resolved =>
      obtain ⟨v, -, hresolved⟩ := canGive_optionMapM hliteral resolved rfl
      exact isQualified_of_resolve htype hresolved

end Defaults

section WrittenClasses

open InputClass

variable {f : Field} {fields : List Field}

theorem keeps_inputGetter (hf : f.shape.IsQualified) : D.Keeps (getter f) := by
  unfold getter
  split
  · next inner hinner =>
    refine keeps_bind (D.keeps_reference rfl) fun optional => ?_
    exact keeps_bind (D.keeps_code (hf.unmarked hinner).optional) fun type => D.keeps_pure _
  · exact keeps_bind (D.keeps_code hf) fun type => D.keeps_pure _

theorem keeps_fieldText (importMarker : String) (hf : f.shape.IsQualified) :
    D.Keeps (fieldText importMarker f) := by
  unfold fieldText
  refine keeps_bind (D.keeps_code hf) fun type => ?_
  exact keeps_bind (D.keeps_inputGetter hf) fun text => D.keeps_pure _

theorem keeps_assignment (hf : f.shape.IsQualified) : D.Keeps (assignment m f) := by
  unfold assignment
  exact keeps_bind (D.keeps_value _ hf _) fun value => D.keeps_pure _

theorem keeps_fieldsConstructor (name : String) (hfields : ∀ f ∈ fields, f.shape.IsQualified) :
    D.Keeps (fieldsConstructor m name fields) := by
  unfold fieldsConstructor
  split
  · exact D.keeps_pure _
  · have hparameter := fun f hf => keeps_bind (D.keeps_parameter (hfields f hf)) fun text =>
      D.keeps_pure ("        " ++ text)
    refine keeps_bind (keeps_mapM hparameter) fun parameters => ?_
    exact keeps_bind (keeps_mapM fun f hf => D.keeps_assignment (hfields f hf))
      fun assignments => D.keeps_pure _

theorem keeps_directSetter (hf : f.shape.IsQualified) : D.Keeps (directSetter f) := by
  unfold directSetter
  exact keeps_bind (D.keeps_code hf) fun type => D.keeps_pure _

theorem keeps_knownSetter (hf : f.shape.IsQualified) : D.Keeps (knownSetter f) := by
  unfold knownSetter
  split
  · next value hvalue =>
    refine keeps_bind (D.keeps_reference rfl) fun output => ?_
    exact keeps_bind (D.keeps_code (hf.withoutNullable.unwrap hvalue)) fun type => D.keeps_pure _
  · exact D.keeps_pure _

theorem isQualified_knownShape (hf : f.shape.IsQualified) : (knownShape f).IsQualified :=
  hf.withoutNullable.unwrap_getD Library.output

theorem keeps_itemsSetter (hf : f.shape.IsQualified) : D.Keeps (itemsSetter f) := by
  unfold itemsSetter
  split
  · next element helement =>
    refine keeps_bind (D.keeps_reference rfl) fun list => ?_
    exact keeps_bind (D.keeps_code ((isQualified_knownShape hf).unwrap helement))
      fun type => D.keeps_pure _
  · exact D.keeps_pure _

theorem keeps_alternativeSetters (hf : f.shape.IsQualified) : D.Keeps (alternativeSetters f) := by
  unfold alternativeSetters
  split
  · next left right halternatives =>
    obtain ⟨hleft, hright⟩ := (isQualified_knownShape hf).alternatives halternatives
    split
    · exact D.keeps_pure _
    · refine keeps_bind (D.keeps_reference rfl) fun either => ?_
      refine keeps_bind (D.keeps_code hleft) fun first => ?_
      exact keeps_bind (D.keeps_code hright) fun second => D.keeps_pure _
  · exact D.keeps_pure _

theorem keeps_setters (hf : f.shape.IsQualified) : D.Keeps (setters f) := by
  unfold setters
  refine keeps_bind (D.keeps_directSetter hf) fun direct => ?_
  refine keeps_bind (D.keeps_knownSetter hf) fun known => ?_
  refine keeps_bind (D.keeps_itemsSetter hf) fun items => ?_
  exact keeps_bind (D.keeps_alternativeSetters hf) fun alternatives => D.keeps_pure _

theorem keeps_builder (name : String) (hfields : ∀ f ∈ fields, f.shape.IsQualified) :
    D.Keeps (builder name fields) := by
  unfold builder
  refine keeps_bind (D.keeps_reference rfl) fun objects => ?_
  refine keeps_bind (keeps_mapM fun f hf => D.keeps_setters (hfields f hf)) fun setters => ?_
  exact keeps_bind (D.keeps_reference rfl) fun missing => D.keeps_pure _

/-- Once its fields are mapped, writing a class keeps to every discipline. -/
theorem exists_inputText {c : InputClass} (hbase : c.base.isQualified = true) :
    ∃ rest : List Field → Drafting String, c.text m = c.fields m >>= rest ∧
      ∀ fields, (∀ f ∈ fields, f.shape.IsQualified) → D.Keeps (rest fields) := by
  refine ⟨_, rfl, fun fields hfields => ?_⟩
  refine keeps_bind (D.keeps_reference hbase) fun base => ?_
  refine keeps_bind (D.keeps_reference rfl) fun importMarker => ?_
  refine keeps_bind (keeps_mapM fun f hf => D.keeps_fieldText importMarker (hfields f hf))
    fun declarations => ?_
  refine keeps_bind (D.keeps_fieldsConstructor _ hfields) fun constructor => ?_
  exact keeps_bind (D.keeps_builder _ hfields) fun builder => D.keeps_pure _

theorem keeps_inputText {c : InputClass} (hbase : c.base.isQualified = true)
    (hc : D.AdmitsAll c.properties) : D.Keeps (c.text m) := by
  obtain ⟨rest, htext, hrest⟩ := D.exists_inputText hbase
  rw [htext]
  exact keeps_bind_of_canGive (keeps_mapM fun p hp => D.keeps_ofProperty (hc p hp) _)
    fun fields hfields => hrest fields (isQualified_of_fields hfields)

end WrittenClasses

section ReadClasses

open OutputClass

variable {f : Field} {fields : List Field}

theorem keeps_outputGetter (hf : f.shape.IsQualified) : D.Keeps (getter f) := by
  unfold getter
  refine keeps_bind ?_ fun parts => D.keeps_pure _
  unfold getterParts
  split
  · exact keeps_bind (D.keeps_code hf) fun type => D.keeps_pure _
  · next inner hinner =>
    have hinner := hf.unmarked hinner
    split_ifs
    · exact keeps_bind (D.keeps_code hinner) fun type => D.keeps_pure _
    · refine keeps_bind (D.keeps_code (.ofClass hinner.base)) fun collection => ?_
      exact keeps_bind (D.keeps_code hinner) fun type => D.keeps_pure _
    · refine keeps_bind (D.keeps_reference rfl) fun optional => ?_
      exact keeps_bind (D.keeps_code hinner.optional) fun type => D.keeps_pure _

theorem keeps_declarations (hfields : ∀ f ∈ fields, f.shape.IsQualified) :
    D.Keeps (declarations fields) := by
  unfold declarations
  refine keeps_bind (keeps_mapM fun f hf => ?_) fun lines => D.keeps_pure _
  exact keeps_bind (D.keeps_parameter (hfields f hf)) fun parameter => D.keeps_pure _

theorem keeps_constructor (name customType objects : String)
    (hfields : ∀ f ∈ fields, f.shape.IsQualified) :
    D.Keeps (constructor name customType objects fields) := by
  unfold constructor
  refine keeps_bind (keeps_mapM fun f hf => ?_) fun parameters => D.keeps_pure _
  exact keeps_bind (D.keeps_parameter (hfields f hf)) fun parameter => D.keeps_pure _

theorem keeps_outputText {c : OutputClass} (hc : D.AdmitsAll c.properties) :
    D.Keeps (c.text m) := by
  unfold OutputClass.text
  refine keeps_bind_of_canGive (keeps_mapM fun p hp => D.keeps_ofProperty (hc p hp) _)
    fun fields hfields => ?_
  have hfields := isQualified_of_fields hfields
  refine keeps_bind (D.keeps_reference rfl) fun customType => ?_
  refine keeps_bind (D.keeps_reference rfl) fun objects => ?_
  refine keeps_bind (D.keeps_declarations hfields) fun declarations => ?_
  refine keeps_bind (D.keeps_constructor _ _ _ hfields) fun constructor => ?_
  exact keeps_bind (keeps_mapM fun f hf => D.keeps_outputGetter (hfields f hf))
    fun getters => D.keeps_pure _

end ReadClasses

section Members

theorem allows_elementsText (e : EnumType) (elements : List (EnumElement × String)) :
    D.Allows (EnumClass.elementsText e elements) := by
  induction elements with
  | nil => exact allows_ok _
  | cons entry rest ih =>
    rw [EnumClass.elementsText]
    refine allows_bind ?_ fun literal _ => allows_bind ih fun later _ => allows_ok _
    unfold EnumClass.elementLiteral
    dsimp only
    split
    · exact allows_ok _
    · exact allows_error (D.raises_other rfl rfl rfl)

theorem keeps_configGetter {p : Property} (hp : D.admits p.type) :
    D.Keeps (ConfigClass.getter m p) := by
  unfold ConfigClass.getter
  refine keeps_bind_of_canGive (D.keeps_ofProperty hp _) fun field hfield => ?_
  have hfield := isQualified_of_ofProperty hfield
  refine keeps_bind (D.keeps_code hfield) fun type => ?_
  exact keeps_bind (D.keeps_value _ hfield _) fun value => D.keeps_pure _

theorem keeps_configText (hconfig : D.AdmitsAll m.package.config) :
    D.Keeps (ConfigClass.text m) := by
  unfold ConfigClass.text
  refine keeps_bind (D.keeps_reference rfl) fun config => ?_
  exact keeps_bind (keeps_mapM fun p hp => D.keeps_configGetter (hconfig p hp)) fun getters =>
    D.keeps_pure _

theorem keeps_utilitiesText : D.Keeps (Utilities.text m) := by
  unfold Utilities.text
  refine keeps_bind (D.keeps_reference rfl) fun optional => ?_
  refine keeps_bind (D.keeps_reference rfl) fun nullable => ?_
  refine keeps_bind (D.keeps_reference rfl) fun invokeOptions => ?_
  refine keeps_bind (D.keeps_reference rfl) fun reader => ?_
  refine keeps_bind (D.keeps_reference rfl) fun streamReader => ?_
  exact keeps_bind (D.keeps_reference rfl) fun collectors => D.keeps_pure _

end Members

section Resources

open ResourceClass

theorem keeps_resourceGetterParts (ident : String) (isNullable : Bool) {value : TypeShape}
    (hvalue : value.IsQualified) : D.Keeps (getterParts ident isNullable value) := by
  unfold getterParts
  split_ifs
  · exact keeps_bind (D.keeps_code hvalue.output) fun type => D.keeps_pure _
  · refine keeps_bind (D.keeps_code (.ofClass hvalue.base)) fun collection => ?_
    exact keeps_bind (D.keeps_code hvalue.output) fun type => D.keeps_pure _
  · refine keeps_bind (D.keeps_reference rfl) fun codegen => ?_
    exact keeps_bind (D.keeps_code hvalue.optional.output) fun type => D.keeps_pure _

/-- The text of an output keeps to the discipline, if its type is admitted. -/
theorem keeps_output {p : Property} (hp : D.admits p.type) : D.Keeps (outputText m p) := by
  unfold outputText
  refine keeps_bind_of_canGive (D.keeps_ofProperty hp _) fun field hfield => ?_
  have hvalue := (isQualified_of_ofProperty hfield).withoutNullable
  have hmark : TypeShape.IsQualifiedMark "/* @Nullable */" :=
    TypeShape.isQualifiedMark_comment "@Nullable */"
  refine keeps_bind (D.keeps_reference rfl) fun exportMarker => ?_
  refine keeps_bind (keeps_mapM fun name hname => ?_) fun classes => ?_
  · exact keeps_bind (D.keeps_code (.ofClass (hvalue.reified name hname)))
      fun text => D.keeps_pure _
  refine keeps_bind (D.keeps_code (.output ?_)) fun fieldType => ?_
  · split
    · exact hvalue.annotated hmark
    · exact hvalue
  exact keeps_bind (D.keeps_resourceGetterParts _ _ hvalue) fun parts => D.keeps_pure _

theorem keeps_resourceLift {α : Type} {x : Except GenerationError α}
    (hx : D.Allows x) : D.Keeps (ResourceClass.lift x) := by
  cases x with
  | ok x => exact D.keeps_pure x
  | error e => exact Frame.keeps_throw (hx e rfl)

theorem allows_typeArgument {r : Resource} (hr : D.Allows (TypeMapper.parseToken r.token)) :
    D.Allows (typeArgument r) := by
  unfold typeArgument
  split
  · exact allows_bind hr fun t _ => allows_ok _
  · exact allows_ok _

theorem isQualified_flavor (r : Resource) : (ResourceFlavor.ofResource r).base.isQualified = true ∧
    (ResourceFlavor.ofResource r).options.isQualified = true := by
  unfold ResourceFlavor.ofResource
  split_ifs <;> exact ⟨rfl, rfl⟩

theorem keeps_lookupConstructor {c : ResourceClass} (hc : c.IsQualified)
    (string nullable options typeArgument : String) :
    D.Keeps (lookupConstructor c string nullable options typeArgument) := by
  unfold lookupConstructor
  refine keeps_bind (D.keeps_reference rfl) fun output => ?_
  dsimp only
  split
  · next name hname =>
    refine keeps_bind (D.keeps_reference (hc.state name hname)) fun state => ?_
    exact keeps_bind (D.keeps_pure _) fun parts => D.keeps_pure _
  · exact keeps_bind (D.keeps_pure _) fun parts => D.keeps_pure _

theorem keeps_constructors {c : ResourceClass} (hc : c.IsQualified)
    (htoken : D.Allows (TypeMapper.parseToken c.resource.token)) : D.Keeps (constructors c) := by
  unfold constructors
  refine keeps_bind (D.keeps_reference rfl) fun string => ?_
  refine keeps_bind (D.keeps_reference rfl) fun nullable => ?_
  refine keeps_bind (D.keeps_reference hc.arguments) fun arguments => ?_
  refine keeps_bind (D.keeps_reference (isQualified_flavor _).2) fun options => ?_
  refine keeps_bind (D.keeps_reference rfl) fun codegen => ?_
  refine keeps_bind (D.keeps_resourceLift (D.allows_typeArgument htoken)) fun typeArgument => ?_
  dsimp only
  split
  · exact keeps_bind (D.keeps_lookupConstructor hc _ _ _ _) fun lookup => D.keeps_pure _
  · exact keeps_bind (D.keeps_pure _) fun lookup => D.keeps_pure _

theorem keeps_constantSetter {p : Property} (hp : D.admits p.inputType) (value : Json.Value) :
    D.Keeps (constantSetter m p value) := by
  unfold constantSetter
  refine keeps_bind_of_canGive (D.keeps_shape hp _) fun shape hshape => ?_
  have htype := (isQualified_of_shape hshape).withoutNullable.unwrap_getD Library.output
  exact keeps_bind (D.keeps_literal _ htype _) fun literal => D.keeps_pure _

theorem keeps_constantSetters {properties : List Property}
    (h : ∀ p ∈ properties, D.admits p.inputType) : D.Keeps (constantSetters m properties) := by
  induction properties with
  | nil => exact D.keeps_pure []
  | cons p rest ih =>
    have ih := ih fun q hq => h q (List.mem_cons_of_mem p hq)
    unfold constantSetters
    split
    · refine keeps_bind (D.keeps_constantSetter (h p List.mem_cons_self) _) fun setter => ?_
      exact keeps_bind ih fun setters => D.keeps_pure _
    · exact ih

theorem keeps_makeArguments {c : ResourceClass} (hc : c.IsQualified)
    (hinputs : ∀ p ∈ c.resource.inputs, D.admits p.inputType) : D.Keeps (makeArguments m c) := by
  unfold makeArguments
  refine keeps_bind (D.keeps_reference rfl) fun nullable => ?_
  refine keeps_bind (D.keeps_reference hc.arguments) fun arguments => ?_
  refine keeps_bind (D.keeps_reference (isQualified_flavor _).2) fun options => ?_
  exact keeps_bind (D.keeps_constantSetters hinputs) fun setters => D.keeps_pure _

theorem keeps_aliasesCall (output : String) (r : Resource) :
    D.Keeps (aliasesCall output r) := by
  unfold aliasesCall
  split
  · exact D.keeps_pure _
  · refine keeps_bind (D.keeps_reference rfl) fun list => ?_
    exact keeps_bind (D.keeps_reference rfl) fun className => D.keeps_pure _

theorem keeps_secretsCall (r : Resource) : D.Keeps (secretsCall r) := by
  unfold secretsCall
  dsimp only
  split
  · exact D.keeps_pure _
  · exact keeps_bind (D.keeps_reference rfl) fun list => D.keeps_pure _

theorem isQualified_utilities (m : TypeMapper) :
    (m.root.append utilitiesClass).isQualified = true :=
  QualifiedName.isQualified_append m.isPackage_root utilitiesClass

theorem keeps_makeOptions (c : ResourceClass) : D.Keeps (makeOptions m c) := by
  unfold makeOptions
  refine keeps_bind (D.keeps_reference rfl) fun nullable => ?_
  refine keeps_bind (D.keeps_reference (isQualified_flavor _).2) fun options => ?_
  refine keeps_bind (D.keeps_reference rfl) fun output => ?_
  refine keeps_bind (D.keeps_reference rfl) fun string => ?_
  refine keeps_bind (D.keeps_reference (isQualified_utilities m)) fun utilities => ?_
  refine keeps_bind (D.keeps_aliasesCall _ _) fun aliases => ?_
  exact keeps_bind (D.keeps_secretsCall _) fun secrets => D.keeps_pure _

theorem keeps_lookup {c : ResourceClass} (hc : c.IsQualified) : D.Keeps (lookup c) := by
  unfold lookup
  refine keeps_bind (D.keeps_reference rfl) fun string => ?_
  refine keeps_bind (D.keeps_reference rfl) fun nullable => ?_
  refine keeps_bind (D.keeps_reference rfl) fun output => ?_
  refine keeps_bind (D.keeps_reference (isQualified_flavor _).2) fun options => ?_
  dsimp only
  split
  · next name hname =>
    refine keeps_bind (D.keeps_reference (hc.state name hname)) fun state => ?_
    exact keeps_bind (D.keeps_pure _) fun parts => D.keeps_pure _
  · exact keeps_bind (D.keeps_pure _) fun parts => D.keeps_pure _

/-- The text of a resource class, part by part. -/
theorem keeps_resourceText {c : ResourceClass} (hc : c.IsQualified)
    (htoken : D.Allows (TypeMapper.parseToken c.resource.token))
    (hproperties : D.AdmitsAll c.resource.properties)
    (hinputs : ∀ p ∈ c.resource.inputs, D.admits p.inputType) : D.Keeps (c.text m) := by
  unfold ResourceClass.text
  refine keeps_bind (D.keeps_reference (isQualified_flavor _).1) fun base => ?_
  refine keeps_bind (D.keeps_reference rfl) fun resourceType => ?_
  refine keeps_bind (keeps_mapM fun p hp => ?_) fun outputs => ?_
  · exact D.keeps_output (hproperties p (List.mem_of_mem_filter hp))
  refine keeps_bind (D.keeps_constructors hc htoken) fun constructors => ?_
  refine keeps_bind (D.keeps_makeArguments hc hinputs) fun makeArguments => ?_
  refine keeps_bind (D.keeps_makeOptions c) fun makeOptions => ?_
  dsimp only
  split
  · exact keeps_bind (D.keeps_lookup hc) fun lookup => D.keeps_pure _
  · exact keeps_bind (D.keeps_pure _) fun lookup => D.keeps_pure _

end Resources

section Functions

open FunctionsClass

theorem keeps_overloads {s : FunctionSignature} (hs : s.IsQualified) :
    D.Keeps (overloads m s) := by
  unfold overloads
  refine keeps_bind (D.keeps_reference rfl) fun output => ?_
  refine keeps_bind (D.keeps_reference rfl) fun future => ?_
  refine keeps_bind (D.keeps_reference rfl) fun invokeOptions => ?_
  refine keeps_bind (D.keeps_reference rfl) fun deployment => ?_
  refine keeps_bind (D.keeps_reference (isQualified_utilities m)) fun utilities => ?_
  refine keeps_bind (D.keeps_code (.ofClass hs.result)) fun result => ?_
  refine keeps_bind (D.keeps_descriptor (.ofClass hs.result)) fun resultDescriptor => ?_
  refine keeps_bind (D.keeps_reference hs.arguments) fun arguments => ?_
  exact keeps_bind (D.keeps_reference hs.plainArguments) fun plainArguments => D.keeps_pure _

end Functions

theorem keeps_functionsText (name : QualifiedName) {signatures : List FunctionSignature}
    (h : ∀ s ∈ signatures, s.IsQualified) : D.Keeps (FunctionsClass.text m name signatures) :=
  keeps_bind (keeps_mapM fun s hs => D.keeps_overloads (h s hs)) fun _ => D.keeps_pure _

end Discipline

namespace DraftFrame

variable {m : TypeMapper} (F : DraftFrame m)

theorem keeps_inputBody {c : InputClass} (hbase : c.base.isQualified = true) :
    F.lenient.Keeps (c.body m).text :=
  F.lenient.keeps_inputText hbase fun _ _ => trivial

theorem keeps_outputBody (c : OutputClass) : F.lenient.Keeps (c.body m).text :=
  F.lenient.keeps_outputText fun _ _ => trivial

theorem keeps_enumBody (name : QualifiedName) (e : EnumType) :
    F.lenient.Keeps (EnumClass.body name e).text :=
  Frame.Keeps.mono (F.keeps_enumText name e) fun _ _ => trivial

theorem keeps_configBody : F.lenient.Keeps (ConfigClass.body m).text :=
  F.lenient.keeps_configText fun _ _ => trivial

theorem keeps_utilitiesBody : F.lenient.Keeps (Utilities.body m).text :=
  F.lenient.keeps_utilitiesText

/-- Each class of a resource keeps to the frame. -/
theorem keeps_resourceBodies {c : ResourceClass} (hc : c.IsQualified) :
    ∀ b ∈ c.bodies m, F.lenient.Keeps b.text := by
  intro b hb
  rcases List.mem_cons.1 hb with rfl | hb
  · exact F.lenient.keeps_resourceText hc (fun _ _ => trivial) (fun _ _ => trivial)
      fun _ _ => trivial
  rcases List.mem_cons.1 hb with rfl | hb
  · exact F.keeps_inputBody rfl
  unfold ResourceClass.stateBodies at hb
  split at hb
  · obtain rfl := List.mem_singleton.1 hb
    exact F.keeps_inputBody rfl
  · cases hb

/-- Each class of a function keeps to the frame. -/
theorem keeps_signatureBodies (s : FunctionSignature) :
    ∀ b ∈ s.bodies m, F.lenient.Keeps b.text := by
  intro b hb
  rcases List.mem_append.1 hb with hb | hb
  · unfold FunctionSignature.argumentBodies at hb
    split at hb
    · rcases List.mem_cons.1 hb with rfl | hb
      · exact F.keeps_inputBody rfl
      · obtain rfl := List.mem_singleton.1 hb
        exact F.keeps_inputBody rfl
    · cases hb
  · unfold FunctionSignature.resultBodies at hb
    split at hb
    · obtain rfl := List.mem_singleton.1 hb
      exact F.keeps_outputBody _
    · cases hb

/-- Each class of some functions keeps to the frame. -/
theorem keeps_functionsBodies {name : QualifiedName} {functions : List Package.Function}
    {signatures : List FunctionSignature}
    (h : functions.mapM (FunctionsClass.signature m) = .ok signatures) :
    ∀ b ∈ FunctionsClass.bodies m name signatures, F.lenient.Keeps b.text := by
  intro b hb
  rcases List.mem_cons.1 hb with rfl | hb
  · refine F.lenient.keeps_functionsText name fun s hs => ?_
    obtain ⟨f, -, hf⟩ := exists_of_mem_mapM h hs
    exact FunctionsClass.isQualified_signature hf
  · obtain ⟨s, -, hb⟩ := List.mem_flatMap.1 hb
    exact F.keeps_signatureBodies s b hb

/-- An object type has a class of the name under which it is requested. -/
theorem keeps_objectBody {r : ClassRequest} {b : ClassBody}
    (h : Generation.objectBody m r = .ok b) : b.name = r.name ∧ F.lenient.Keeps b.text := by
  unfold Generation.objectBody at h
  split at h
  · cases h
  · split at h
    · obtain rfl := pure_eq_ok.1 h
      exact ⟨rfl, F.keeps_outputBody _⟩
    · obtain rfl := pure_eq_ok.1 h
      refine ⟨rfl, F.keeps_inputBody ?_⟩
      dsimp only
      split <;> rfl

theorem finishes_draft {b : ClassBody} {e : Emitted} (hb : F.lenient.Keeps b.text)
    (h : b.draft m.settings = .ok e) : F.Finishes b.name e :=
  finishes_draftClass hb h

/-- The drafts of classes are finished for these classes, one for each. -/
theorem finishes_drafts {bodies : List ClassBody} {es : List Emitted}
    (hbodies : ∀ b ∈ bodies, F.lenient.Keeps b.text)
    (h : bodies.mapM (ClassBody.draft m.settings) = .ok es) :
    List.Forall₂ F.Finishes (bodies.map ClassBody.name) es := by
  induction mapM_eq_ok.1 h with
  | nil => exact .nil
  | @cons b e rest es hb hrest ih =>
    refine .cons (F.finishes_draft (hbodies b List.mem_cons_self) hb) (ih ?_ (mapM_eq_ok.2 hrest))
    exact fun b hb => hbodies b (List.mem_cons_of_mem _ hb)

theorem finishes_input {c : InputClass} (hbase : c.base.isQualified = true) {e : Emitted}
    (h : c.emit m = .ok e) : F.Finishes c.name e :=
  F.finishes_draft (F.keeps_inputBody hbase) h

theorem finishes_enum {e : EnumType} {emitted : Emitted} (h : EnumClass.emit m e = .ok emitted) :
    ∃ owner, m.enumClass e.token = .ok owner ∧ F.Finishes owner emitted := by
  rw [EnumClass.emit_eq] at h
  obtain ⟨owner, howner, h⟩ := bind_eq_ok.1 h
  exact ⟨owner, howner, F.finishes_draft (F.keeps_enumBody owner e) h⟩

theorem finishes_config {e : Emitted} (h : ConfigClass.emit m = .ok e) :
    F.Finishes (m.root.append "Config") e :=
  finishes_draftClass F.keeps_configBody h

theorem finishes_utilities {e : Emitted} (h : Utilities.emit m = .ok e) :
    F.Finishes (m.root.append utilitiesClass) e :=
  finishes_draftClass F.keeps_utilitiesBody h

/-- A resource has the files of its class, its arguments and, if it has a state, its state. -/
theorem finishes_resource {r : Resource} {es : List Emitted} (h : ResourceClass.emit m r = .ok es) :
    ∃ c : ResourceClass, ResourceClass.ofResource m r = .ok c ∧
      List.Forall₂ F.Finishes c.classNames es := by
  obtain ⟨c, hc, hbodies⟩ := ResourceClass.emit_eq_ok.1 h
  refine ⟨c, hc, ?_⟩
  rw [← ResourceClass.map_name_bodies hc]
  exact F.finishes_drafts (F.keeps_resourceBodies (ResourceClass.isQualified_ofResource hc)) hbodies

/-- The files of a group of functions are those of its class and of the classes of each function. -/
theorem finishes_functions {name : QualifiedName} {functions : List Package.Function}
    {es : List Emitted} (h : FunctionsClass.emit m name functions = .ok es) :
    ∃ signatures, functions.mapM (FunctionsClass.signature m) = .ok signatures ∧
      List.Forall₂ F.Finishes (name :: signatures.flatMap FunctionSignature.classNames) es := by
  obtain ⟨signatures, hsignatures, hbodies⟩ := FunctionsClass.exists_bodies_of_emit h
  refine ⟨signatures, hsignatures, ?_⟩
  rw [← FunctionsClass.map_name_bodies m]
  exact F.finishes_drafts (F.keeps_functionsBodies hsignatures) hbodies

theorem finishes_object {r : ClassRequest} {e : Emitted} (h : Generation.objectClass m r = .ok e) :
    F.Finishes r.name e := by
  rw [Generation.objectClass_eq] at h
  obtain ⟨b, hb, h⟩ := bind_eq_ok.1 h
  obtain ⟨hname, hkeeps⟩ := F.keeps_objectBody hb
  exact hname ▸ F.finishes_draft hkeeps h

end DraftFrame

end SchemaToJava.Java
