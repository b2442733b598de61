import SchemaToJava.Proofs.BoundTypes

/-!
Bound packages in which named types have got other tokens. If following the changed references of
one document gives what following those of another does, tokens apart, then all that is bound from
the two documents agrees in this way, and binding succeeds for one exactly if it does for the other.
-/
namespace SchemaToJava.Package

open Schema Outcome

mutual

/-- The type with other tokens for the named types in it. Resources keep theirs. -/
def ResolvedType.mapTokens (f : String → String) : ResolvedType → ResolvedType
  | primitive p => primitive p
  | array t => array (t.mapTokens f)
  | map t => map (t.mapTokens f)
  | object key => object { key with token := f key.token }
  | enum token p => enum (f token) p
  | resource token => resource token
  | named token t => named (f token) (t.mapTokens f)
  | union ts => union (listMapTokens f ts)
  | optional t => optional (t.mapTokens f)
  | input t => input (t.mapTokens f)

def ResolvedType.listMapTokens (f : String → String) : List ResolvedType → List ResolvedType
  | [] => []
  | t :: ts => t.mapTokens f :: listMapTokens f ts

end

def Property.mapTokens (f : String → String) (p : Property) : Property :=
  { p with type := p.type.mapTokens f }

def TypeDefinition.mapTokens (f : String → String) : TypeDefinition → TypeDefinition
  | object o => object { o with properties := o.properties.map (Property.mapTokens f) }
  | enum e => enum e
  | primitiveAlias token t => primitiveAlias token (t.mapTokens f)

def Resource.mapTokens (f : String → String) (r : Resource) : Resource :=
  { r with
    properties := r.properties.map (Property.mapTokens f)
    inputs := r.inputs.map (Property.mapTokens f)
    state := r.state.map (List.map (Property.mapTokens f)) }

def Function.mapTokens (f : String → String) (fn : Function) : Function :=
  { fn with
    inputs := fn.inputs.map (List.map (Property.mapTokens f))
    outputs := fn.outputs.map (List.map (Property.mapTokens f)) }

def mapTokens (f : String → String) (p : Package) : Package :=
  { p with
    types := p.types.mapValues (TypeDefinition.mapTokens f)
    resources := p.resources.map (Resource.mapTokens f)
    functions := p.functions.map (Function.mapTokens f)
    config := p.config.map (Property.mapTokens f)
    provider := p.provider.map (Resource.mapTokens f) }

theorem ResolvedType.mapTokens_asOptional (f : String → String) (t : ResolvedType) :
    t.asOptional.mapTokens f = (t.mapTokens f).asOptional := by
  cases t <;> rfl

/-- Following the changed references that the types have gives, in the second document, what
following them gives in the first, tokens apart. -/
def Leads (d d' : PackageDocument) (f rep : String → String) (exprs : List TypeExpr) : Prop :=
  ∀ reference ∈ referencesIn exprs, ∀ context context' : String,
    Follows (ResolvedType.mapTokens rep) (bindReference d reference context)
      (bindReference d' (f reference) context')

variable {d d' : PackageDocument} {f rep : String → String}

theorem Leads.mono {exprs others : List TypeExpr} (h : Leads d d' f rep exprs)
    (hsub : others ⊆ exprs) : Leads d d' f rep others := by
  intro reference hreference
  obtain ⟨e, he, heq⟩ := List.mem_filterMap.1 hreference
  exact h reference (List.mem_filterMap.2 ⟨e, hsub he, heq⟩)

theorem follows_primitiveNamed (name context context' : String) :
    Follows id (primitiveNamed name context) (primitiveNamed name context') := by
  unfold primitiveNamed
  split
  · exact follows_ok rfl
  · exact follows_error

mutual

/-- Binding follows the change of tokens through every part of a type. -/
theorem follows_bindType {context context' : String} : (e : TypeExpr) →
    Leads d d' f rep e.withParts → Follows (ResolvedType.mapTokens rep) (bindType d context e)
      (bindType d' context' (e.mapReferences f))
  | ⟨typeName, reference, items, additional, oneOf, plain⟩, h => by
    unfold TypeExpr.withParts at h
    unfold bindType TypeExpr.mapReferences
    cases oneOf with
    | some alternatives =>
      have hparts : Leads d d' f rep (listParts alternatives) :=
        h.mono fun e he => by simp [alternativeParts, he]
      exact (follows_bindTypes alternatives hparts).bind fun ts _ => follows_ok rfl
    | none =>
      cases reference with
      | some reference => exact h reference (by simp [referencesIn]) context context'
      | none =>
        dsimp only [Option.map_none, alternativesMapReferences]
        split
        · exact follows_error
        · cases items with
          | none => exact follows_error
          | some t =>
            have hparts : Leads d d' f rep t.withParts :=
              h.mono fun e he => by simp [optionParts, he]
            exact (follows_bindType t hparts).bind fun t _ => follows_ok rfl
        · cases additional with
          | none => exact follows_ok rfl
          | some t =>
            have hparts : Leads d d' f rep t.withParts :=
              h.mono fun e he => by simp [optionParts, he]
            exact (follows_bindType t hparts).bind fun t _ => follows_ok rfl
        · exact (follows_primitiveNamed _ context context').bind fun p _ => follows_ok rfl

theorem follows_bindTypes {context context' : String} : (es : List TypeExpr) →
    Leads d d' f rep (listParts es) → Follows (ResolvedType.listMapTokens rep)
      (bindTypes d context es) (bindTypes d' context' (listMapReferences f es))
  | [], _ => follows_ok rfl
  | e :: es, h => by
    unfold listParts at h
    unfold bindTypes listMapReferences
    refine (follows_bindType e (h.mono (List.subset_append_left _ _))).bind fun t _ => ?_
    refine (follows_bindTypes es (h.mono (List.subset_append_right _ _))).bind fun ts _ => ?_
    exact follows_ok rfl

end

theorem plain_mapReferences (f : String → String) (e : TypeExpr) :
    (e.mapReferences f).plain = e.plain := by
  cases e
  unfold TypeExpr.mapReferences
  rfl

theorem follows_bindProperty {owner owner' name : String} {required : List String}
    {p : PropertyEntry} (h : Leads d d' f rep p.type.withParts) :
    Follows (Property.mapTokens rep) (bindProperty d owner required name p)
      (bindProperty d' owner' required name { p with type := p.type.mapReferences f }) := by
  unfold bindProperty
  refine (follows_bindType p.type h).bind fun t _ => follows_ok ?_
  have htype : (Property.make name t (required.contains name)).type.mapTokens rep =
      (Property.make name (t.mapTokens rep) (required.contains name)).type := by
    unfold Property.make
    split
    · rfl
    · exact t.mapTokens_asOptional rep
  simp only [Property.mapTokens, htype, plain_mapReferences]
  rfl

theorem follows_checkRequired {owner owner' : String} {properties : Properties}
    {required : List String} : Follows id (checkRequired owner properties required)
      (checkRequired owner' (properties.mapReferences f) required) := by
  unfold checkRequired Properties.mapReferences
  simp only [Dictionary.contains_mapValues]
  split
  · exact follows_error
  · exact follows_ok rfl

/-- Binding follows the change of tokens property by property. -/
theorem follows_bindProperties {owner owner' : String} {properties : Properties}
    {required : List String} (h : Leads d d' f rep properties.typeExprs) :
    Follows (List.map (Property.mapTokens rep)) (bindProperties d owner properties required)
      (bindProperties d' owner' (properties.mapReferences f) required) := by
  unfold bindProperties
  refine follows_checkRequired.bind fun _ _ => follows_mapM fun ⟨name, p⟩ hentry => ?_
  refine follows_bindProperty (h.mono fun e he => ?_)
  exact List.mem_flatMap.2 ⟨p, List.mem_map.2 ⟨_, hentry, rfl⟩, he⟩

theorem follows_bindOptional {α β : Type} {change : α → α} {g : β → β}
    {bind bind' : α → Bound β} {x : Option α}
    (h : ∀ a, x = some a → Follows g (bind a) (bind' (change a))) :
    Follows (Option.map g) (bindOptional bind x) (bindOptional bind' (x.map change)) := by
  cases x with
  | none => exact follows_ok rfl
  | some a => exact (h a rfl).bind fun b _ => follows_ok rfl

/-- Objects that may be left out. -/
theorem follows_bindOptional_object {owner : String} {o : Option ObjectEntry}
    (h : Leads d d' f rep ((o.map fun o => Properties.typeExprs o.properties).getD [])) :
    Follows (Option.map (List.map (Property.mapTokens rep))) (bindOptional (bindObject d owner) o)
      (bindOptional (bindObject d' owner) (o.map (ObjectEntry.mapReferences f))) := by
  refine follows_bindOptional fun a ha => ?_
  subst ha
  exact follows_bindProperties h

theorem follows_bindResource {token : String} {r : ResourceEntry}
    (h : Leads d d' f rep r.typeExprs) : Follows (Resource.mapTokens rep) (bindResource d token r)
      (bindResource d' token (r.mapReferences f)) := by
  have hplaces := h.mono (List.subset_append_left _ _)
  have hobject := hplaces.mono (List.subset_append_left _ _)
  have hinputs := hplaces.mono (List.subset_append_right _ _)
  unfold bindResource
  refine Follows.bind (f := id) (fun b => by simp) fun _ _ => ?_
  refine (follows_bindProperties hobject).bind fun properties _ => ?_
  refine (follows_bindProperties hinputs).bind fun inputs _ => ?_
  have hstate := h.mono (List.subset_append_right _ _)
  refine (follows_bindOptional_object hstate).bind fun state _ => ?_
  exact follows_ok rfl

theorem follows_bindProvider {r : ResourceEntry} (hname : d'.name = d.name)
    (h : Leads d d' f rep r.typeExprs) : Follows (Resource.mapTokens rep) (bindProvider d r)
      (bindProvider d' (r.mapReferences f)) := by
  have hplaces := h.mono (List.subset_append_left _ _)
  have hobject := hplaces.mono (List.subset_append_left _ _)
  have hinputs := hplaces.mono (List.subset_append_right _ _)
  unfold bindProvider
  rw [hname]
  refine (follows_bindProperties hobject).bind fun properties _ => ?_
  refine (follows_bindProperties hinputs).bind fun inputs _ => ?_
  exact follows_ok rfl

theorem follows_bindFunction {token : String} {fn : FunctionEntry}
    (h : Leads d d' f rep fn.typeExprs) : Follows (Function.mapTokens rep)
      (bindFunction d token fn) (bindFunction d' token (fn.mapReferences f)) := by
  unfold bindFunction
  refine Follows.bind (f := id) (fun b => by simp) fun _ _ => ?_
  have hinputs := h.mono (List.subset_append_left _ _)
  have houtputs := h.mono (List.subset_append_right _ _)
  refine (follows_bindOptional_object hinputs).bind fun inputs _ => ?_
  refine (follows_bindOptional_object houtputs).bind fun outputs _ => ?_
  exact follows_ok rfl

theorem follows_bindOptional_provider {provider : Option ResourceEntry} (hname : d'.name = d.name)
    (h : Leads d d' f rep ((provider.map ResourceEntry.typeExprs).getD [])) :
    Follows (Option.map (Resource.mapTokens rep)) (bindOptional (bindProvider d) provider)
      (bindOptional (bindProvider d') (provider.map (ResourceEntry.mapReferences f))) := by
  refine follows_bindOptional fun r hr => ?_
  subst hr
  exact follows_bindProvider hname h

theorem follows_bindResources {resources : Dictionary String ResourceEntry}
    (h : Leads d d' f rep (resources.values.flatMap ResourceEntry.typeExprs)) :
    Follows (List.map (Resource.mapTokens rep))
      (resources.entries.mapM fun (token, r) => bindResource d token r)
      ((resources.mapValues (ResourceEntry.mapReferences f)).entries.mapM
        fun (token, r) => bindResource d' token r) := by
  refine follows_mapM fun ⟨token, r⟩ hr => follows_bindResource (h.mono fun e he => ?_)
  exact List.mem_flatMap.2 ⟨r, List.mem_map.2 ⟨_, hr, rfl⟩, he⟩

theorem follows_bindFunctions {functions : Dictionary String FunctionEntry}
    (h : Leads d d' f rep (functions.values.flatMap FunctionEntry.typeExprs)) :
    Follows (List.map (Function.mapTokens rep))
      (functions.entries.mapM fun (token, fn) => bindFunction d token fn)
      ((functions.mapValues (FunctionEntry.mapReferences f)).entries.mapM
        fun (token, fn) => bindFunction d' token fn) := by
  refine follows_mapM fun ⟨token, fn⟩ hfn => follows_bindFunction (h.mono fun e he => ?_)
  exact List.mem_flatMap.2 ⟨fn, List.mem_map.2 ⟨_, hfn, rfl⟩, he⟩

/-- A named type is bound alike in both documents, if its references lead to the same types. -/
theorem follows_bindTypeEntry {token : String} {t : TypeEntry}
    (h : Leads d d' f rep (Properties.typeExprs t.object.properties)) :
    Follows (TypeDefinition.mapTokens rep) (bindTypeEntry d token t)
      (bindTypeEntry d' token (t.mapReferences f)) := by
  have hobject {k : List Property → TypeDefinition}
      (hk : ∀ ps, (k ps).mapTokens rep = k (ps.map (Property.mapTokens rep))) :
      Follows (TypeDefinition.mapTokens rep) (do return k (← bindObject d token t.object))
        (do return k (← bindObject d' token (t.object.mapReferences f))) :=
    (follows_bindProperties h).bind fun ps _ => follows_ok (hk ps)
  unfold bindTypeEntry
  refine Follows.bind (f := id) (fun b => by simp) fun _ _ => ?_
  dsimp only [TypeEntry.mapReferences, ObjectEntry.mapReferences, id]
  split
  · exact follows_ok rfl
  · split
    · split
      · exact hobject fun ps => rfl
      · exact (follows_primitiveNamed _ token token).bind fun p _ => follows_ok rfl
    · exact hobject fun ps => rfl

end SchemaToJava.Package
