import SchemaToJava.Package.Binding
import SchemaToJava.Proofs.Dictionaries
import SchemaToJava.Proofs.Outcomes

/-!
Documents in other words. A rewording changes descriptions and the way in which settings for the
target languages are written, but not what these settings are. It changes neither which types are
merged nor which rule is broken first, and binding gives the same package in the other words.
-/
namespace SchemaToJava.Schema

open Package Outcome

/-- Other words for the parts of a document that say nothing about its types. -/
structure Rewording where
  description : Option String → Option String
  language : Dictionary String Json.Value → Dictionary String Json.Value
  /-- Settings that were the same are the same afterwards, and no others. -/
  same_language : ∀ l l',
    ((language l).entries == (language l').entries) = (l.entries == l'.entries)
  /-- A property still asks for the same name in Java. -/
  javaName_language : ∀ p : PropertyEntry,
    javaName { p with language := language p.language } = javaName p

variable (r : Rewording)

def PropertyEntry.reworded (p : PropertyEntry) : PropertyEntry :=
  { p with description := r.description p.description, language := r.language p.language }

def ObjectEntry.reworded (o : ObjectEntry) : ObjectEntry :=
  { o with
    description := r.description o.description
    properties := o.properties.mapValues (PropertyEntry.reworded r) }

def EnumEntry.reworded (e : EnumEntry) : EnumEntry :=
  { e with description := r.description e.description }

def TypeEntry.reworded (t : TypeEntry) : TypeEntry where
  object := t.object.reworded r
  elements := t.elements.map (List.map (EnumEntry.reworded r))

def ResourceEntry.reworded (s : ResourceEntry) : ResourceEntry :=
  { s with
    object := s.object.reworded r
    inputs := s.inputs.mapValues (PropertyEntry.reworded r)
    state := s.state.map (ObjectEntry.reworded r) }

def FunctionEntry.reworded (f : FunctionEntry) : FunctionEntry :=
  { f with
    description := r.description f.description
    inputs := f.inputs.map (ObjectEntry.reworded r)
    outputs := f.outputs.map (ObjectEntry.reworded r) }

def ConfigSection.reworded (c : ConfigSection) : ConfigSection :=
  { c with properties := c.properties.mapValues (PropertyEntry.reworded r) }

def PackageDocument.reworded (d : PackageDocument) : PackageDocument :=
  { d with
    description := r.description d.description
    config := d.config.reworded r
    types := d.types.mapValues (TypeEntry.reworded r)
    provider := d.provider.map (ResourceEntry.reworded r)
    resources := d.resources.mapValues (ResourceEntry.reworded r)
    functions := d.functions.mapValues (FunctionEntry.reworded r)
    language := r.language d.language }

section Merging

theorem PropertyEntry.sameBody_reworded (p q : PropertyEntry) :
    (p.reworded r).sameBody (q.reworded r) = p.sameBody q := by
  unfold sameBody reworded
  rw [r.same_language]

theorem allAgree_map {α β : Type} {f : α → β} {agree : β → β → Bool} {agree' : α → α → Bool}
    (h : ∀ x y, agree (f x) (f y) = agree' x y) (xs ys : List α) :
    allAgree agree (xs.map f) (ys.map f) = allAgree agree' xs ys := by
  induction xs generalizing ys with
  | nil => cases ys <;> rfl
  | cons x xs ih =>
    cases ys with
    | nil => rfl
    | cons y ys => rw [List.map_cons, List.map_cons, allAgree, allAgree, h, ih]

/-- Other words do not make named types alike or different. -/
theorem TypeEntry.sameBody_reworded (s t : TypeEntry) :
    (s.reworded r).sameBody (t.reworded r) = s.sameBody t := by
  have hproperties : allAgree (fun p q => p.1 == q.1 && p.2.sameBody q.2)
      (s.reworded r).object.properties.entries (t.reworded r).object.properties.entries =
        allAgree (fun p q => p.1 == q.1 && p.2.sameBody q.2) s.object.properties.entries
          t.object.properties.entries :=
    allAgree_map (fun p q => by rw [PropertyEntry.sameBody_reworded]) _ _
  have helements : ∀ es fs, allAgree EnumEntry.sameBody (es.map (EnumEntry.reworded r))
      (fs.map (EnumEntry.reworded r)) = allAgree EnumEntry.sameBody es fs :=
    allAgree_map fun _ _ => rfl
  unfold sameBody
  rw [hproperties]
  unfold reworded ObjectEntry.reworded
  cases s.elements with
  | none => cases t.elements <;> rfl
  | some es =>
    cases t.elements with
    | none => rfl
    | some fs =>
      dsimp only [Option.map_some]
      rw [helements]

theorem caseGroups_reworded (types : Dictionary String TypeEntry) :
    caseGroups (types.mapValues (TypeEntry.reworded r)) =
      (caseGroups types).mapValues
        (List.map fun entry => (entry.1, entry.2.reworded r)) := by
  let keyed := types.entries.map fun entry => (Text.lowercase entry.1, entry)
  have hgathered := Dictionary.mapValues_gathered
    (fun entry : String × TypeEntry => (entry.1, entry.2.reworded r)) keyed
  unfold caseGroups Dictionary.mapValues at *
  rw [List.map_map, List.foldl_map, List.foldl_map] at hgathered
  rw [List.foldl_map]
  exact hgathered.symm

theorem groupDiagnostics_reworded (group : List (String × TypeEntry)) :
    groupDiagnostics (group.map fun entry => (entry.1, entry.2.reworded r)) =
      groupDiagnostics group := by
  cases group with
  | nil => rfl
  | cons first others =>
    simp only [List.map_cons, groupDiagnostics, List.map_map]
    refine List.map_congr_left fun entry _ => ?_
    dsimp only [Function.comp_apply]
    rw [TypeEntry.sameBody_reworded]

/-- The words make no difference to what is found. -/
theorem PackageDocument.caseDiagnostics_reworded (d : PackageDocument) :
    (d.reworded r).caseDiagnostics = d.caseDiagnostics := by
  have hgroups : caseGroups (d.reworded r).types = _ := caseGroups_reworded r d.types
  unfold caseDiagnostics
  rw [hgroups, Dictionary.values_mapValues, List.flatMap_map]
  exact List.flatMap_congr fun group _ => groupDiagnostics_reworded r group

theorem Properties.mapReferences_reworded (f : String → String) (ps : Properties) :
    Properties.mapReferences f (ps.mapValues (PropertyEntry.reworded r)) =
      (Properties.mapReferences f ps).mapValues (PropertyEntry.reworded r) := by
  unfold mapReferences
  rw [Dictionary.mapValues_mapValues, Dictionary.mapValues_mapValues]
  rfl

theorem ObjectEntry.mapReferences_reworded (f : String → String) (o : ObjectEntry) :
    (o.reworded r).mapReferences f = (o.mapReferences f).reworded r := by
  unfold mapReferences reworded
  rw [Properties.mapReferences_reworded]

theorem TypeEntry.mapReferences_reworded (f : String → String) (t : TypeEntry) :
    (t.reworded r).mapReferences f = (t.mapReferences f).reworded r := by
  unfold mapReferences reworded
  rw [ObjectEntry.mapReferences_reworded]

/-- What may be there is changed in two ways, in either order. -/
theorem map_map_comm {α : Type} {f g : α → α} (h : ∀ x, f (g x) = g (f x)) (x : Option α) :
    (x.map g).map f = (x.map f).map g := by
  cases x with
  | none => rfl
  | some a => exact congrArg some (h a)

theorem ResourceEntry.mapReferences_reworded (f : String → String) (s : ResourceEntry) :
    (s.reworded r).mapReferences f = (s.mapReferences f).reworded r := by
  unfold mapReferences reworded
  rw [ObjectEntry.mapReferences_reworded, Properties.mapReferences_reworded,
    map_map_comm (ObjectEntry.mapReferences_reworded r f)]

theorem FunctionEntry.mapReferences_reworded (f : String → String) (fn : FunctionEntry) :
    (fn.reworded r).mapReferences f = (fn.mapReferences f).reworded r := by
  unfold mapReferences reworded
  rw [map_map_comm (ObjectEntry.mapReferences_reworded r f),
    map_map_comm (ObjectEntry.mapReferences_reworded r f)]

theorem PackageDocument.mapReferences_reworded (f : String → String) (d : PackageDocument) :
    (d.reworded r).mapReferences f = (d.mapReferences f).reworded r := by
  unfold mapReferences reworded ConfigSection.reworded
  simp only [Properties.mapReferences_reworded, Dictionary.mapValues_mapValues,
    TypeEntry.mapReferences_reworded, ResourceEntry.mapReferences_reworded,
    FunctionEntry.mapReferences_reworded, map_map_comm (ResourceEntry.mapReferences_reworded r f)]

/-- Merging gives the merged document in the other words, and finds the same. -/
theorem PackageDocument.mergeCaseVariants_reworded (d : PackageDocument) :
    (d.reworded r).mergeCaseVariants =
      (d.mergeCaseVariants.1.reworded r, d.mergeCaseVariants.2) := by
  unfold mergeCaseVariants
  rw [caseDiagnostics_reworded]
  dsimp only
  split
  · rfl
  · rw [← mapReferences_reworded]
    unfold reworded
    rw [Dictionary.mapValues_filter]

end Merging

section Validation

theorem checkRequired_mapValues {α β : Type} (owner : String) (declared : Dictionary String α)
    (f : α → β) (required : List String) :
    checkRequired owner (declared.mapValues f) required =
      checkRequired owner declared required := by
  unfold checkRequired
  simp only [Dictionary.contains_mapValues]

theorem checkObject_reworded (owner : String) (o : ObjectEntry) :
    checkObject owner (o.reworded r) = checkObject owner o :=
  checkRequired_mapValues owner o.properties _ o.required

theorem checkElements_reworded (token : String) (typeName : Option String) (names : List String)
    (values : List (String × Nat)) (place : Nat) (es : List EnumEntry) :
    checkElements token typeName names values place (es.map (EnumEntry.reworded r)) =
      checkElements token typeName names values place es := by
  induction es generalizing names values place with
  | nil => rfl
  | cons e es ih =>
    rw [List.map_cons, checkElements, checkElements]
    simp only [ih]
    rfl

theorem checkEnum_reworded (token : String) (typeName : Option String) (es : List EnumEntry) :
    checkEnum token typeName (es.map (EnumEntry.reworded r)) = checkEnum token typeName es := by
  unfold checkEnum
  rw [checkElements_reworded, List.isEmpty_map]

theorem checkTypeEntry_reworded (token : String) (t : TypeEntry) :
    checkTypeEntry token (t.reworded r) = checkTypeEntry token t := by
  unfold checkTypeEntry TypeEntry.reworded
  cases t.elements with
  | none => exact congrArg _ (funext fun _ => checkObject_reworded r token t.object)
  | some es => exact congrArg _ (funext fun _ => checkEnum_reworded r token t.object.typeName es)

theorem checkResource_reworded (token : String) (s : ResourceEntry) :
    checkResource token (s.reworded r) = checkResource token s := by
  unfold checkResource ResourceEntry.reworded
  simp only [checkObject_reworded, checkRequired_mapValues]
  cases s.state with
  | none => rfl
  | some state => simp only [Option.map_some, checkObject_reworded]

theorem checkFunction_reworded (token : String) (f : FunctionEntry) :
    checkFunction token (f.reworded r) = checkFunction token f := by
  have hlist : (f.reworded r).inputs.toList ++ (f.reworded r).outputs.toList =
      (f.inputs.toList ++ f.outputs.toList).map (ObjectEntry.reworded r) := by
    unfold FunctionEntry.reworded
    rw [List.map_append, Option.toList_map, Option.toList_map]
  unfold checkFunction
  rw [hlist, forM_map]
  simp only [checkObject_reworded]

/-- The same rule is broken first, if any is. -/
theorem PackageDocument.validate_reworded (d : PackageDocument) :
    (d.reworded r).validate = d.validate := by
  unfold validate reworded Dictionary.mapValues
  simp only [forM_map, checkTypeEntry_reworded, checkResource_reworded, checkFunction_reworded,
    ← checkRequired_mapValues "config" d.config.properties (PropertyEntry.reworded r)]
  rfl

end Validation

end SchemaToJava.Schema

namespace SchemaToJava.Package

open Schema Outcome

def Property.mapDescription (f : Option String → Option String) (p : Property) : Property :=
  { p with description := f p.description }

def ObjectType.mapDescriptions (f : Option String → Option String) (o : ObjectType) : ObjectType :=
  { o with
    description := f o.description
    properties := o.properties.map (Property.mapDescription f) }

def EnumElement.mapDescription (f : Option String → Option String) (e : EnumElement) :
    EnumElement :=
  { e with description := f e.description }

def EnumType.mapDescriptions (f : Option String → Option String) (e : EnumType) : EnumType :=
  { e with
    description := f e.description
    elements := e.elements.map (EnumElement.mapDescription f) }

def TypeDefinition.mapDescriptions (f : Option String → Option String) :
    TypeDefinition → TypeDefinition
  | object o => object (o.mapDescriptions f)
  | enum e => enum (e.mapDescriptions f)
  | primitiveAlias token t => primitiveAlias token t

def Resource.mapDescriptions (f : Option String → Option String) (r : Resource) : Resource :=
  { r with
    description := f r.description
    properties := r.properties.map (Property.mapDescription f)
    inputs := r.inputs.map (Property.mapDescription f)
    state := r.state.map (List.map (Property.mapDescription f)) }

def Function.mapDescriptions (f : Option String → Option String) (fn : Function) : Function :=
  { fn with
    description := f fn.description
    inputs := fn.inputs.map (List.map (Property.mapDescription f))
    outputs := fn.outputs.map (List.map (Property.mapDescription f)) }

def reworded (r : Rewording) (p : Package) : Package :=
  { p with
    description := r.description p.description
    types := p.types.mapValues (TypeDefinition.mapDescriptions r.description)
    resources := p.resources.map (Resource.mapDescriptions r.description)
    functions := p.functions.map (Function.mapDescriptions r.description)
    config := p.config.map (Property.mapDescription r.description)
    provider := p.provider.map (Resource.mapDescriptions r.description)
    language := r.language p.language }

section Binding

variable (r : Rewording) (d : PackageDocument)

theorem bindLocalType_reworded : bindLocalType (d.reworded r) = bindLocalType d := by
  funext token context
  have hfound : (d.reworded r).types.get? token =
      (d.types.get? token).map (TypeEntry.reworded r) :=
    Dictionary.get?_mapValues d.types _ token
  unfold bindLocalType
  rw [hfound]
  cases d.types.get? token with
  | none => rfl
  | some t =>
    have helements : (t.reworded r).elements.isSome = t.elements.isSome := Option.isSome_map
    dsimp only [Option.map_some]
    rw [helements]
    rfl

theorem bindReference_reworded : bindReference (d.reworded r) = bindReference d := by
  have hresources : ∀ token, (d.reworded r).resources.contains token = d.resources.contains token :=
    Dictionary.contains_mapValues d.resources _
  unfold bindReference
  rw [bindLocalType_reworded]
  simp only [hresources]
  rfl

mutual

/-- A document matters to a type only through the references that it follows. -/
theorem bindType_congr {d d' : PackageDocument} (h : bindReference d' = bindReference d)
    (context : String) : (e : TypeExpr) → bindType d' context e = bindType d context e
  | ⟨typeName, reference, items, additional, oneOf, plain⟩ => by
    unfold bindType
    cases oneOf with
    | some alternatives => simp only [bindTypes_congr h context alternatives]
    | none =>
      cases reference with
      | some reference => simp only [h]
      | none =>
        cases items with
        | none =>
          cases additional with
          | none => rfl
          | some u => simp only [bindType_congr h context u]
        | some t =>
          cases additional with
          | none => simp only [bindType_congr h context t]
          | some u => simp only [bindType_congr h context t, bindType_congr h context u]

theorem bindTypes_congr {d d' : PackageDocument} (h : bindReference d' = bindReference d)
    (context : String) : (es : List TypeExpr) → bindTypes d' context es = bindTypes d context es
  | [] => rfl
  | e :: es => by
    unfold bindTypes
    rw [bindType_congr h context e, bindTypes_congr h context es]

end

theorem bindProperty_reworded (owner : String) (required : List String) (name : String)
    (p : PropertyEntry) : bindProperty (d.reworded r) owner required name (p.reworded r) =
      Property.mapDescription r.description <$> bindProperty d owner required name p := by
  have hname : javaName (p.reworded r) = javaName p := r.javaName_language p
  unfold bindProperty
  rw [hname, bindType_congr (bindReference_reworded r d), map_bind]
  rfl

theorem bindProperties_reworded (owner : String) (properties : Properties)
    (required : List String) :
    bindProperties (d.reworded r) owner (properties.mapValues (PropertyEntry.reworded r)) required =
      List.map (Property.mapDescription r.description) <$>
        bindProperties d owner properties required := by
  unfold bindProperties
  rw [checkRequired_mapValues, map_bind]
  exact congrArg _ (funext fun _ => mapM_map_eq
    (fun entry => bindProperty_reworded r d owner required entry.1 entry.2) properties.entries)

theorem bindObject_reworded (owner : String) (o : ObjectEntry) :
    bindObject (d.reworded r) owner (o.reworded r) =
      List.map (Property.mapDescription r.description) <$> bindObject d owner o :=
  bindProperties_reworded r d owner o.properties o.required

theorem bindOptional_map {α α' β β' : Type} {bind : α → Bound β} {bind' : α' → Bound β'}
    {c : α → α'} {g : β → β'} (h : ∀ x, bind' (c x) = g <$> bind x) (x : Option α) :
    bindOptional bind' (x.map c) = Option.map g <$> bindOptional bind x := by
  cases x with
  | none => rfl
  | some a => simp only [Option.map_some, bindOptional, h, map_bind, bind_map_left, map_pure]

/-- Binding a named type in other words gives the definition in other words. -/
theorem bindTypeEntry_reworded (token : String) (t : TypeEntry) :
    bindTypeEntry (d.reworded r) token (t.reworded r) =
      TypeDefinition.mapDescriptions r.description <$> bindTypeEntry d token t := by
  unfold bindTypeEntry
  rw [map_bind]
  refine congrArg _ (funext fun _ => ?_)
  have helements : (t.reworded r).elements = t.elements.map (List.map (EnumEntry.reworded r)) := rfl
  have hobject : (t.reworded r).object = t.object.reworded r := rfl
  rw [helements, hobject]
  cases t.elements with
  | some es =>
    have hes : (es.map (EnumEntry.reworded r)).map bindElement =
        (es.map bindElement).map (EnumElement.mapDescription r.description) := by
      rw [List.map_map, List.map_map]
      rfl
    dsimp only [Option.map_some]
    rw [hes]
    rfl
  | none =>
    have hname : (t.object.reworded r).typeName = t.object.typeName := rfl
    dsimp only [Option.map_none]
    rw [hname, bindObject_reworded]
    cases t.object.typeName with
    | none => simp only [map_bind, bind_map_left, map_pure]; rfl
    | some name =>
      dsimp only
      split
      · simp only [map_bind, bind_map_left, map_pure]; rfl
      · rw [map_bind]; rfl

theorem bindResource_reworded (token : String) (s : ResourceEntry) :
    bindResource (d.reworded r) token (s.reworded r) =
      Resource.mapDescriptions r.description <$> bindResource d token s := by
  have hobject := bindObject_reworded r d token s.object
  have hinputs := bindProperties_reworded r d token s.inputs s.requiredInputs
  have hstate := bindOptional_map (bindObject_reworded r d token) s.state
  unfold bindResource ResourceEntry.reworded
  simp only [hobject, hinputs, hstate, map_bind, bind_map_left]
  rfl

theorem bindProvider_reworded (s : ResourceEntry) :
    bindProvider (d.reworded r) (s.reworded r) =
      Resource.mapDescriptions r.description <$> bindProvider d s := by
  have hobject := bindObject_reworded r d (Token.ofProvider d.name) s.object
  have hinputs :=
    bindProperties_reworded r d (Token.ofProvider d.name) s.inputs s.requiredInputs
  have hname : (d.reworded r).name = d.name := rfl
  unfold bindProvider ResourceEntry.reworded
  simp only [hname, hobject, hinputs, map_bind, bind_map_left]
  rfl

theorem bindFunction_reworded (token : String) (f : FunctionEntry) :
    bindFunction (d.reworded r) token (f.reworded r) =
      Function.mapDescriptions r.description <$> bindFunction d token f := by
  have hinputs := bindOptional_map (bindObject_reworded r d token) f.inputs
  have houtputs := bindOptional_map (bindObject_reworded r d token) f.outputs
  unfold bindFunction FunctionEntry.reworded
  simp only [hinputs, houtputs, map_bind, bind_map_left]
  rfl

theorem bindTypeEntries_reworded (types : List (String × TypeEntry)) :
    bindTypeEntries (d.reworded r) (types.map fun entry => (entry.1, entry.2.reworded r)) =
      List.map (fun entry => (entry.1, entry.2.mapDescriptions r.description)) <$>
        bindTypeEntries d types := by
  refine mapM_map_eq (fun entry => ?_) types
  dsimp only
  rw [bindTypeEntry_reworded, map_bind, bind_map_left]
  rfl

end Binding

end SchemaToJava.Package

namespace SchemaToJava.Schema

open Package Outcome

variable (r : Rewording)

/-- A document in other words is bound to the package in these words, or fails as before. -/
theorem PackageDocument.bind_reworded (d : PackageDocument) :
    (d.reworded r).bind = Package.reworded r <$> d.bind := by
  have htypes := bindTypeEntries_reworded r d d.types.entries
  have hresources : (d.reworded r).resources.entries.mapM
      (fun entry => bindResource (d.reworded r) entry.1 entry.2) =
        List.map (Resource.mapDescriptions r.description) <$>
          d.resources.entries.mapM fun entry => bindResource d entry.1 entry.2 :=
    mapM_map_eq (fun entry => bindResource_reworded r d entry.1 entry.2) _
  have hprovider := bindOptional_map (bindProvider_reworded r d) d.provider
  have hfunctions : (d.reworded r).functions.entries.mapM
      (fun entry => bindFunction (d.reworded r) entry.1 entry.2) =
        List.map (Function.mapDescriptions r.description) <$>
          d.functions.entries.mapM fun entry => bindFunction d entry.1 entry.2 :=
    mapM_map_eq (fun entry => bindFunction_reworded r d entry.1 entry.2) _
  have hconfig := bindProperties_reworded r d "config" d.config.properties d.config.required
  have hentries : (d.reworded r).types.entries =
      d.types.entries.map fun entry => (entry.1, entry.2.reworded r) := rfl
  have hproviderEntry : (d.reworded r).provider = d.provider.map (ResourceEntry.reworded r) := rfl
  have hsection : (d.reworded r).config =
      { d.config with
        properties := d.config.properties.mapValues (PropertyEntry.reworded r) } := rfl
  unfold bind
  simp only [hentries, hproviderEntry, hsection, htypes, hresources, hprovider, hfunctions, hconfig,
    map_bind, bind_map_left, map_pure, ← Dictionary.mapValues_ofList]
  rfl

end SchemaToJava.Schema
