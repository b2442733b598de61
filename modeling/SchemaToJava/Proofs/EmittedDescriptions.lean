import SchemaToJava.Proofs.AgreeingMappers
import SchemaToJava.Proofs.Emitters
import SchemaToJava.Proofs.FileFronts
import SchemaToJava.Proofs.Rewordings

/-!
Emitters and descriptions. A description is only ever written into a comment of the class that it is
about. So with other descriptions an emitter fails as before, or it gives files of the same paths
that start with the same packages and imports and need the same classes.
-/
namespace SchemaToJava.Java

open Package Outcome Drafting

variable {m : TypeMapper} (f : Option String → Option String)

/-- Two files of a run have the same path and front, and need the same classes. -/
def Emitted.Alike (settings : Settings) (e e' : Emitted) : Prop :=
  e.outline settings = e'.outline settings

def BothStart (text text' : String) : Prop := StartsClass text ∧ StartsClass text'

theorem StartsClass.append {text : String} (h : StartsClass text) (rest : String) :
    StartsClass (text ++ rest) := by
  obtain ⟨c, hc, hhead⟩ := h
  refine ⟨c, hc, ?_⟩
  rw [String.toList_append, List.head?_append, hhead, Option.some_or]

theorem startsClass_doc {text : String} (h : StartsClass text)
    (description deprecation : Option String) :
    StartsClass (Doc.text "" description deprecation ++ text) := by
  unfold Doc.text
  dsimp only
  split
  · rwa [String.empty_append]
  · refine StartsClass.append ?_ text
    exact ⟨'/', by decide, by simp [sourceLines]⟩

def Field.mapDescription (field : Field) : Field :=
  { field with property := field.property.mapDescription f }

theorem Field.ofProperty_mapDescription (o : ShapeOptions) (p : Property) :
    ofProperty m o (p.mapDescription f) = mapDescription f <$> ofProperty m o p := by
  unfold ofProperty
  rw [map_bind]
  rfl

theorem map_asInput_mapDescription (properties : List Property) :
    (properties.map (Property.mapDescription f)).map Property.asInput =
      (properties.map Property.asInput).map (Property.mapDescription f) := by
  rw [List.map_map, List.map_map]
  rfl

namespace InputClass

/-- The class with another description of its own, and other ones of its properties. -/
def redescribed (description : Option String) (c : InputClass) : InputClass :=
  { c with description, properties := c.properties.map (Property.mapDescription f) }

theorem fields_redescribed (description : Option String) (c : InputClass) :
    (c.redescribed f description).fields m = List.map (Field.mapDescription f) <$> c.fields m :=
  mapM_map_eq (Field.ofProperty_mapDescription f _) c.properties

theorem fieldsConstructor_mapDescription (name : String) (fields : List Field) :
    fieldsConstructor m name (fields.map (Field.mapDescription f)) =
      fieldsConstructor m name fields := by
  unfold fieldsConstructor
  rw [List.isEmpty_map, List.mapM_map, List.mapM_map]
  rfl

theorem builder_mapDescription (name : String) (fields : List Field) :
    builder name (fields.map (Field.mapDescription f)) = builder name fields := by
  unfold builder buildResult
  rw [List.mapM_map, List.isEmpty_map]
  simp only [List.flatMap_map, List.map_map]
  rfl

theorem related_text (description : Option String) (c : InputClass) :
    Related BothStart (c.text m) ((c.redescribed f description).text m) := by
  unfold text
  rw [fields_redescribed, bind_map_left]
  refine related_bind_same _ fun fields => ?_
  refine related_bind_same _ fun base => ?_
  refine related_bind_same _ fun importMarker => ?_
  have hfields : Related (List.Forall₂ fun _ _ => True) (fields.mapM (fieldText importMarker))
      ((fields.map (Field.mapDescription f)).mapM (fieldText importMarker)) := by
    refine related_mapM (fun field => ?_) fields
    unfold fieldText
    refine related_bind_same _ fun type => ?_
    exact related_bind_same _ fun text => related_pure trivial
  refine hfields.bind fun declarations declarations' _ => ?_
  rw [fieldsConstructor_mapDescription]
  refine related_bind_same _ fun constructor => ?_
  rw [builder_mapDescription]
  refine related_bind_same _ fun builder => ?_
  have hclass : StartsClass (sourceLines
      [s!"public final class {c.name.base} extends {base} \x7b",
        "",
        s!"    public static final {c.name.base} Empty = new {c.name.base}();",
        ""]) :=
    ⟨'p', by decide, by simp [sourceLines, toString]⟩
  refine related_pure ⟨?_, ?_⟩
  · exact (((((startsClass_doc hclass _ _).append _).append _).append _).append _).append _
  · exact (((((startsClass_doc hclass _ _).append _).append _).append _).append _).append _

/-- Descriptions make no difference to the outline of a class to write. -/
theorem related_emit (description : Option String) {c : InputClass}
    (hbase : c.base.isQualified = true) :
    Outcome.Related (Emitted.Alike m.settings) (c.emit m) ((c.redescribed f description).emit m) :=
  related_draftClass ((quietFrame m).lenient.keeps_inputText hbase fun _ _ => trivial)
    (related_text f description c)

end InputClass

namespace OutputClass

/-- The class with another description of its own, and other ones of its properties. -/
def redescribed (description : Option String) (c : OutputClass) : OutputClass :=
  { c with description, properties := c.properties.map (Property.mapDescription f) }

theorem fields_redescribed (description : Option String) (c : OutputClass) :
    (c.redescribed f description).fields m = List.map (Field.mapDescription f) <$> c.fields m :=
  mapM_map_eq (Field.ofProperty_mapDescription f _) c.properties

theorem declarations_mapDescription (fields : List Field) :
    declarations (fields.map (Field.mapDescription f)) = declarations fields := by
  unfold declarations
  rw [List.mapM_map]
  rfl

theorem constructor_mapDescription (name customType objects : String) (fields : List Field) :
    constructor name customType objects (fields.map (Field.mapDescription f)) =
      constructor name customType objects fields := by
  unfold constructor
  rw [List.mapM_map, List.map_map]
  rfl

theorem related_text (description : Option String) (c : OutputClass) :
    Related BothStart (c.text m) ((c.redescribed f description).text m) := by
  unfold text
  rw [fields_redescribed, bind_map_left]
  refine related_bind_same _ fun fields => ?_
  refine related_bind_same _ fun customType => ?_
  refine related_bind_same _ fun objects => ?_
  rw [declarations_mapDescription]
  refine related_bind_same _ fun declarations => ?_
  rw [constructor_mapDescription]
  refine related_bind_same _ fun constructor => ?_
  have hfields : Related (List.Forall₂ fun _ _ => True) (fields.mapM getter)
      ((fields.map (Field.mapDescription f)).mapM getter) := by
    refine related_mapM (fun field => ?_) fields
    unfold getter
    exact related_bind_same _ fun parts => related_pure trivial
  refine hfields.bind fun getters getters' _ => ?_
  have hclass : StartsClass
      (sourceLines [s!"@{customType}", s!"public final class {c.name.base} \x7b"]) :=
    ⟨'@', by decide, by simp [sourceLines, toString]⟩
  refine related_pure ⟨?_, ?_⟩
  · exact ((((startsClass_doc hclass _ _).append _).append _).append _).append _
  · exact ((((startsClass_doc hclass _ _).append _).append _).append _).append _

/-- Descriptions make no difference to the outline of a class to read. -/
theorem related_emit (description : Option String) (c : OutputClass) :
    Outcome.Related (Emitted.Alike m.settings) (c.emit m) ((c.redescribed f description).emit m) :=
  related_draftClass ((quietFrame m).lenient.keeps_outputText fun _ _ => trivial)
    (related_text f description c)

end OutputClass

namespace EnumClass

theorem identifiers_mapDescriptions (e : EnumType) :
    identifiers (e.mapDescriptions f) = identifiers e := by
  have hbeside (used : List String) (elements : List EnumElement) :
      identifiersBeside used (elements.map (EnumElement.mapDescription f)) =
        identifiersBeside used elements := by
    induction elements generalizing used with
    | nil => rfl
    | cons element rest ih =>
      let ident := freeIdentifier used (wantedIdentifier element)
      exact congrArg (ident :: ·) (ih (ident :: used))
  exact hbeside [] e.elements

theorem declared_mapDescriptions (e : EnumType) :
    (e.mapDescriptions f).elements.zip (identifiers (e.mapDescriptions f)) =
      (e.elements.zip (identifiers e)).map fun declared =>
        (declared.1.mapDescription f, declared.2) := by
  rw [identifiers_mapDescriptions]
  exact List.zip_map_left

theorem related_elementsText (e : EnumType) (declared : List (EnumElement × String)) :
    Outcome.Related (fun _ _ => True) (elementsText e declared)
      (elementsText (e.mapDescriptions f)
        (declared.map fun declared => (declared.1.mapDescription f, declared.2))) := by
  induction declared with
  | nil => exact .ok trivial
  | cons first rest ih =>
    obtain ⟨element, ident⟩ := first
    refine Outcome.related_bind_same fun literal _ => ?_
    exact ih.bind fun _ _ _ => .ok trivial

/-- Descriptions make no difference to the outline of an enum. -/
theorem related_emit (e : EnumType) :
    Outcome.Related (Emitted.Alike m.settings) (emit m e) (emit m (e.mapDescriptions f)) := by
  let D := (quietFrame m).lenient
  refine Outcome.related_bind_same fun owner _ => related_draftClass (m := m) ?_ ?_
  · refine Frame.keeps_bind (D.keeps_code (isQualified_primitiveShape _)) fun type => ?_
    refine Frame.keeps_bind (D.keeps_reference rfl) fun enumType => ?_
    refine Frame.keeps_bind (D.keeps_reference rfl) fun objects => ?_
    refine Frame.keeps_bind (D.keeps_reference rfl) fun joiner => ?_
    have hlift := Frame.keeps_lift (F := D.toFrame)
      (elementsText e (e.elements.zip (identifiers e)))
    exact Frame.keeps_bind (hlift.mono fun _ _ => trivial) fun elements => D.keeps_pure _
  · refine related_bind_same _ fun type => ?_
    refine related_bind_same _ fun enumType => ?_
    refine related_bind_same _ fun objects => ?_
    refine related_bind_same _ fun joiner => ?_
    rw [declared_mapDescriptions]
    refine (related_lift (related_elementsText f e _)).bind fun elements elements' _ => ?_
    have hclass : StartsClass (s!"@{enumType}\n") := ⟨'@', by decide, by simp [toString]⟩
    refine related_pure ⟨?_, ?_⟩
    · exact (((startsClass_doc hclass _ _).append _).append _).append _
    · exact (((startsClass_doc hclass _ _).append _).append _).append _

end EnumClass

namespace ResourceClass

def mapDescriptions (c : ResourceClass) : ResourceClass :=
  { c with resource := c.resource.mapDescriptions f }

theorem ofResource_mapDescriptions (r : Resource) :
    ofResource m (r.mapDescriptions f) = mapDescriptions f <$> ofResource m r := by
  unfold ofResource
  cases r with
  | mk token description properties inputs state =>
    cases state with
    | none =>
      simp only [map_bind]
      rfl
    | some properties =>
      simp only [map_bind]
      rfl

theorem constantSetters_mapDescription (properties : List Property) :
    constantSetters m (properties.map (Property.mapDescription f)) =
      constantSetters m properties := by
  induction properties with
  | nil => rfl
  | cons p rest ih =>
    rw [List.map_cons, constantSetters, constantSetters, ih]
    rfl

theorem makeArguments_mapDescriptions (c : ResourceClass) :
    makeArguments m (c.mapDescriptions f) = makeArguments m c := by
  have hsetters : constantSetters m (c.mapDescriptions f).resource.inputs =
      constantSetters m c.resource.inputs := constantSetters_mapDescription f c.resource.inputs
  unfold makeArguments
  rw [hsetters]
  rfl

theorem makeOptions_mapDescriptions (c : ResourceClass) :
    makeOptions m (c.mapDescriptions f) = makeOptions m c := by
  have hsecrets : secretsCall (c.mapDescriptions f).resource = secretsCall c.resource := by
    have hnames : (c.mapDescriptions f).resource.properties.filter (·.secret) =
        (c.resource.properties.filter (·.secret)).map (Property.mapDescription f) :=
      List.filter_map
    unfold secretsCall
    rw [hnames]
    simp only [List.isEmpty_map, List.map_map]
    rfl
  unfold makeOptions
  rw [hsecrets]
  rfl

theorem related_outputText (p : Property) :
    Related (fun _ _ => True) (outputText m p) (outputText m (p.mapDescription f)) := by
  unfold outputText
  rw [Field.ofProperty_mapDescription, bind_map_left]
  refine related_bind_same _ fun field => ?_
  refine related_bind_same _ fun exportMarker => ?_
  refine related_bind_same _ fun classes => ?_
  refine related_bind_same _ fun fieldType => ?_
  exact related_bind_same _ fun parts => related_pure trivial

theorem related_text (c : ResourceClass) :
    Related BothStart (c.text m) ((c.mapDescriptions f).text m) := by
  have hconstructors : constructors (c.mapDescriptions f) = constructors c := rfl
  have hlookup : lookup (c.mapDescriptions f) = lookup c := rfl
  have howned : (c.mapDescriptions f).resource.properties.filter
      (fun p => !inheritedOutputs.contains p.name) =
        (c.resource.properties.filter fun p => !inheritedOutputs.contains p.name).map
          (Property.mapDescription f) :=
    List.filter_map
  unfold text
  rw [howned, hconstructors, makeArguments_mapDescriptions, makeOptions_mapDescriptions, hlookup]
  refine related_bind_same _ fun base => ?_
  refine related_bind_same _ fun resourceType => ?_
  refine (related_mapM (related_outputText f) _).bind fun outputs outputs' _ => ?_
  refine related_bind_same _ fun constructors => ?_
  refine related_bind_same _ fun arguments => ?_
  refine related_bind_same _ fun options => ?_
  have hstarts (description deprecation : Option String) (token name outputs lookup : String) :
      StartsClass (Doc.text "" description deprecation ++
        sourceLines [s!"@{resourceType}(type={token})",
          s!"public class {name} extends {base} \x7b"] ++
        outputs ++ constructors ++ arguments ++ options ++ lookup ++ "\x7d\n") := by
    have hclass : StartsClass (sourceLines
        [s!"@{resourceType}(type={token})", s!"public class {name} extends {base} \x7b"]) :=
      ⟨'@', by decide, by simp [sourceLines, toString]⟩
    have hfront := (startsClass_doc hclass description deprecation).append outputs
    exact ((((hfront.append _).append _).append _).append _).append _
  refine related_ite (related_bind_same _ fun lookup => ?_) (related_bind_same _ fun lookup => ?_)
  · exact related_pure ⟨hstarts _ _ _ _ _ _, hstarts _ _ _ _ _ _⟩
  · exact related_pure ⟨hstarts _ _ _ _ _ _, hstarts _ _ _ _ _ _⟩

theorem argumentsClass_mapDescription (name : QualifiedName) (properties : List Property) :
    argumentsClass name (properties.map (Property.mapDescription f)) =
      (argumentsClass name properties).redescribed f none := by
  unfold argumentsClass InputClass.redescribed
  rw [map_asInput_mapDescription]

/-- Descriptions make no difference to the outlines of the files of a resource. -/
theorem related_emit (r : Resource) :
    Outcome.Related (List.Forall₂ (Emitted.Alike m.settings)) (emit m r)
      (emit m (r.mapDescriptions f)) := by
  have hproperties (name : QualifiedName) (properties : List Property) :
      Outcome.Related (Emitted.Alike m.settings) ((argumentsClass name properties).emit m)
        ((argumentsClass name (properties.map (Property.mapDescription f))).emit m) := by
    rw [argumentsClass_mapDescription]
    exact InputClass.related_emit f none rfl
  unfold emit
  rw [ofResource_mapDescriptions, bind_map_left]
  refine Outcome.related_bind_same fun c hc => ?_
  have hquiet := (quietFrame m).lenient.keeps_resourceText (isQualified_ofResource hc)
    (fun _ _ => trivial) (fun _ _ => trivial) fun _ _ => trivial
  refine (related_draftClass hquiet (related_text f c)).bind fun main main' hmain => ?_
  refine (hproperties c.arguments r.inputs).bind fun arguments arguments' harguments => ?_
  have hstate : (r.mapDescriptions f).state =
      r.state.map (List.map (Property.mapDescription f)) := rfl
  have hname : (c.mapDescriptions f).state = c.state := rfl
  rw [hstate, hname]
  cases c.state with
  | none => exact .ok (.cons hmain (.cons harguments .nil))
  | some name =>
    cases r.state with
    | none => exact .ok (.cons hmain (.cons harguments .nil))
    | some properties =>
      refine (hproperties name properties).bind fun state state' hstate => ?_
      exact .ok (.cons hmain (.cons harguments (.cons hstate .nil)))

end ResourceClass

namespace FunctionsClass

def mapDescriptions (s : FunctionSignature) : FunctionSignature :=
  { s with function := s.function.mapDescriptions f }

theorem signature_mapDescriptions (fn : Package.Function) :
    signature m (fn.mapDescriptions f) = mapDescriptions f <$> signature m fn := by
  have hinputs : (fn.mapDescriptions f).inputs.isSome = fn.inputs.isSome := Option.isSome_map
  have houtputs : (fn.mapDescriptions f).outputs.isSome = fn.outputs.isSome := Option.isSome_map
  unfold signature
  rw [hinputs, houtputs, map_bind]
  rfl

/-- Descriptions leave the files of a function's arguments as they are, but for their comments. -/
theorem related_argumentFiles (s : FunctionSignature) :
    Outcome.Related (List.Forall₂ (Emitted.Alike m.settings)) (argumentFiles m s)
      (argumentFiles m (mapDescriptions f s)) := by
  have hinput (name : QualifiedName) (inputless : Bool) (properties : List Property) :
      Outcome.Related (Emitted.Alike m.settings)
        (InputClass.emit m
          ⟨name, none, properties.map Property.asInput, Library.invokeArgs, inputless⟩)
        (InputClass.emit m ⟨name, none,
          (properties.map (Property.mapDescription f)).map Property.asInput, Library.invokeArgs,
          inputless⟩) := by
    rw [map_asInput_mapDescription]
    exact InputClass.related_emit f none rfl
  have houtput (name : QualifiedName) (properties : List Property) :
      Outcome.Related (Emitted.Alike m.settings) (OutputClass.emit m ⟨name, none, properties⟩)
        (OutputClass.emit m ⟨name, none, properties.map (Property.mapDescription f)⟩) :=
    OutputClass.related_emit f none _
  obtain ⟨⟨token, description, inputs, outputs, deprecation⟩, method, arguments, plainArguments,
    result⟩ := s
  cases inputs with
  | none =>
    cases outputs with
    | none => exact .ok .nil
    | some properties =>
      exact (houtput result properties).bind fun _ _ hresult => .ok (.cons hresult .nil)
  | some inputs =>
    refine (hinput arguments false inputs).bind fun first first' hfirst => ?_
    refine (hinput plainArguments true inputs).bind fun second second' hsecond => ?_
    cases outputs with
    | none => exact .ok (.cons hfirst (.cons hsecond .nil))
    | some properties =>
      refine (houtput result properties).bind fun _ _ hresult => ?_
      exact .ok (.cons hfirst (.cons hsecond (.cons hresult .nil)))

theorem related_overloads (s : FunctionSignature) :
    Related (fun _ _ => True) (overloads m s) (overloads m (mapDescriptions f s)) := by
  refine related_bind_same _ fun output => ?_
  refine related_bind_same _ fun future => ?_
  refine related_bind_same _ fun invokeOptions => ?_
  refine related_bind_same _ fun deployment => ?_
  refine related_bind_same _ fun utilities => ?_
  refine related_bind_same _ fun result => ?_
  refine related_bind_same _ fun resultDescriptor => ?_
  refine related_bind_same _ fun arguments => ?_
  exact related_bind_same _ fun plainArguments => related_pure trivial

theorem related_text (name : QualifiedName) (signatures : List FunctionSignature) :
    Related BothStart (text m name signatures)
      (text m name (signatures.map (mapDescriptions f))) := by
  refine (related_mapM (related_overloads f) signatures).bind fun overloads overloads' _ => ?_
  have hclass : StartsClass s!"public final class {name.base} \x7b\n" :=
    ⟨'p', by decide, by simp [toString]⟩
  exact related_pure ⟨(hclass.append _).append _, (hclass.append _).append _⟩

/-- Descriptions make no difference to the outlines of the files of functions. -/
theorem related_emit (name : QualifiedName) (functions : List Package.Function) :
    Outcome.Related (List.Forall₂ (Emitted.Alike m.settings)) (emit m name functions)
      (emit m name (functions.map (Function.mapDescriptions f))) := by
  let Member (entry entry' : FunctionSignature × List Emitted) : Prop :=
    (entry.1.IsQualified ∧ entry'.1 = mapDescriptions f entry.1) ∧
      List.Forall₂ (Emitted.Alike m.settings) entry.2 entry'.2
  let member (fn : Package.Function) :
      Except GenerationError (FunctionSignature × List Emitted) := do
    let s ← signature m fn
    return (s, ← argumentFiles m s)
  have hmember (fn : Package.Function) :
      Outcome.Related Member (member fn) (member (fn.mapDescriptions f)) := by
    unfold member
    rw [signature_mapDescriptions, bind_map_left]
    refine Outcome.related_bind_same fun s hs => ?_
    refine (related_argumentFiles f s).bind fun es es' hes => ?_
    exact .ok ⟨⟨isQualified_signature hs, rfl⟩, hes⟩
  have hmembers := Outcome.related_mapM hmember functions
  refine hmembers.bind fun members members' hmembers => ?_
  have hsignatures : members'.map Prod.fst = (members.map Prod.fst).map (mapDescriptions f) := by
    rw [List.map_map]
    induction hmembers with
    | nil => rfl
    | cons hmember _ ih => rw [List.map_cons, List.map_cons, ih, hmember.1.2]; rfl
  have hqualified : ∀ s ∈ members.map Prod.fst, s.IsQualified := by
    intro s hs
    obtain ⟨member, hmember, rfl⟩ := List.mem_map.1 hs
    obtain ⟨member', -, hrelated⟩ := exists_right_of_mem hmembers hmember
    exact hrelated.1.1
  have hfiles : List.Forall₂ (Emitted.Alike m.settings) (members.flatMap Prod.snd)
      (members'.flatMap Prod.snd) :=
    List.rel_flatMap hmembers fun _ _ hmember => hmember.2
  have hquiet := (quietFrame m).lenient.keeps_functionsText name hqualified
  rw [hsignatures]
  refine (related_draftClass hquiet (related_text f name _)).bind fun main main' hmain => ?_
  exact .ok (.cons hmain hfiles)

/-- Functions with other descriptions are grouped as they were. -/
theorem group_mapDescriptions (functions : List Package.Function) :
    group m (functions.map (Function.mapDescriptions f)) =
      List.map (fun entry => (entry.1, entry.2.map (Function.mapDescriptions f))) <$>
        group m functions := by
  have hplaced : ∀ fn : Package.Function,
      (do return (← className m (fn.mapDescriptions f).token, fn.mapDescriptions f)) =
        (fun entry => (entry.1, entry.2.mapDescriptions f)) <$>
          (do return (← className m fn.token, fn) :
            Except GenerationError (QualifiedName × Package.Function)) := by
    intro fn
    rw [map_bind]
    rfl
  unfold group
  rw [mapM_map_eq hplaced, bind_map_left, map_bind]
  simp only [← Dictionary.mapValues_gathered]
  rfl

end FunctionsClass

namespace ConfigClass

/-- Descriptions make no difference to the outline of the configuration class. -/
theorem related_emit {m' : TypeMapper} (h : m.Agrees m')
    (hconfig : m'.package.config = m.package.config.map (Property.mapDescription f)) :
    Outcome.Related (Emitted.Alike m.settings) (emit m) (emit m') := by
  have hgetter (p : Property) :
      Related (fun _ _ => True) (getter m p) (getter m (p.mapDescription f)) := by
    unfold getter
    rw [Field.ofProperty_mapDescription, bind_map_left]
    refine related_bind_same _ fun field => ?_
    refine related_bind_same _ fun type => ?_
    exact related_bind_same _ fun value => related_pure trivial
  have htext : Related BothStart (text m) (text m') := by
    unfold text
    rw [getter_congr h, h.name, hconfig]
    refine related_bind_same _ fun config => ?_
    refine (related_mapM hgetter m.package.config).bind fun getters getters' _ => ?_
    have hclass (line : String) :
        StartsClass (sourceLines ["public final class Config \x7b", "", line]) :=
      ⟨'p', by decide, by simp [sourceLines]⟩
    exact related_pure ⟨((hclass _).append _).append _, ((hclass _).append _).append _⟩
  unfold emit
  rw [h.settings, h.root_eq]
  exact related_draftClass ((quietFrame m).lenient.keeps_configText fun _ _ => trivial) htext

end ConfigClass

end SchemaToJava.Java
