import SchemaToJava.Proofs.BoundTypes

/-!
Bound packages and their documents. The properties of a package, wherever they stand, have types
that the document writes; its resources and its enums are those of the document.
-/
namespace SchemaToJava.Package

open Schema Outcome

def Resource.allProperties (r : Resource) : List Property :=
  r.properties ++ r.inputs ++ r.state.getD []

def Function.allProperties (f : Function) : List Property := f.inputs.getD [] ++ f.outputs.getD []

def TypeDefinition.allProperties : TypeDefinition → List Property
  | .object o => o.properties
  | _ => []

variable {d : PackageDocument}

/-- The property is bound from an entry whose types are among the given ones. -/
def BoundWithin (d : PackageDocument) (exprs : List TypeExpr) (p : Property) : Prop :=
  ∃ (owner : String) (required : List String) (name : String) (entry : PropertyEntry),
    entry.type.withParts ⊆ exprs ∧ bindProperty d owner required name entry = .ok p

theorem BoundWithin.mono {exprs others : List TypeExpr} {p : Property}
    (h : BoundWithin d exprs p) (hsub : exprs ⊆ others) : BoundWithin d others p := by
  obtain ⟨owner, required, name, entry, hexprs, hbind⟩ := h
  exact ⟨owner, required, name, entry, List.Subset.trans hexprs hsub, hbind⟩

theorem boundWithin_append {ps qs : List Property} {exprs others : List TypeExpr}
    (hps : ∀ p ∈ ps, BoundWithin d exprs p) (hqs : ∀ p ∈ qs, BoundWithin d others p) :
    ∀ p ∈ ps ++ qs, BoundWithin d (exprs ++ others) p := by
  intro p hp
  rcases List.mem_append.1 hp with hp | hp
  · exact (hps p hp).mono (List.subset_append_left _ _)
  · exact (hqs p hp).mono (List.subset_append_right _ _)

/-- Members that are bound one by one have properties that are bound from their own entries. -/
theorem boundWithin_flatMap {α β : Type} {R : α → β → Prop} {xs : List α} {ys : List β}
    {exprs : α → List TypeExpr} {properties : β → List Property} (h : List.Forall₂ R xs ys)
    (hR : ∀ x y, R x y → ∀ p ∈ properties y, BoundWithin d (exprs x) p) :
    ∀ p ∈ ys.flatMap properties, BoundWithin d (xs.flatMap exprs) p := by
  intro p hp
  obtain ⟨y, hy, hp⟩ := List.mem_flatMap.1 hp
  obtain ⟨x, hx, hxy⟩ := exists_left_of_mem h hy
  exact (hR x y hxy p hp).mono fun e he => List.mem_flatMap.2 ⟨x, hx, he⟩

/-- Bound properties come from the entries of their section. -/
theorem boundWithin_of_bindProperties {owner : String} {properties : Properties}
    {required : List String} {ps : List Property}
    (h : bindProperties d owner properties required = .ok ps) :
    ∀ p ∈ ps, BoundWithin d (Properties.typeExprs properties) p := by
  unfold bindProperties at h
  obtain ⟨_, -, h⟩ := bind_eq_ok.1 h
  intro p hp
  obtain ⟨⟨name, entry⟩, hentry, hbind⟩ := exists_of_mem_mapM h hp
  refine ⟨owner, required, name, entry, fun e he => ?_, hbind⟩
  exact List.mem_flatMap.2 ⟨entry, List.mem_map.2 ⟨_, hentry, rfl⟩, he⟩

/-- A property has the type that its entry is bound to, which is optional unless the property is
required. -/
theorem BoundWithin.exists_type {exprs : List TypeExpr} {p : Property}
    (h : BoundWithin d exprs p) : ∃ (context : String) (e : TypeExpr) (t : ResolvedType),
      e.withParts ⊆ exprs ∧ bindType d context e = .ok t ∧
        p.type = if p.required then t else t.asOptional := by
  obtain ⟨owner, required, name, entry, hexprs, hbind⟩ := h
  obtain ⟨t, ht, hbind⟩ := bind_eq_ok.1 hbind
  obtain rfl := pure_eq_ok.1 hbind
  exact ⟨_, entry.type, t, hexprs, ht, rfl⟩

/-- The resources and enums in the type of the property are referred to in the given types. -/
def RefersWithin (d : PackageDocument) (exprs : List TypeExpr) (p : Property) : Prop :=
  ∀ n : ResolvedType, n.IsMember → n.IsNode p.type → IsReferred d exprs n

theorem isNode_of_asOptional {n t : ResolvedType} (hmember : n.IsMember)
    (h : n.IsNode t.asOptional) : n.IsNode t := by
  unfold ResolvedType.asOptional at h
  split at h
  · exact h
  · cases h with
    | root => cases hmember
    | optional h => exact h

theorem BoundWithin.refersWithin {exprs : List TypeExpr} {p : Property}
    (h : BoundWithin d exprs p) : RefersWithin d exprs p := by
  intro n hmember hn
  obtain ⟨context, e, t, hexprs, hbind, htype⟩ := h.exists_type
  refine (isReferred_of_bindType hmember hbind ?_).mono hexprs
  rw [htype] at hn
  split at hn
  · exact hn
  · exact isNode_of_asOptional hmember hn

theorem bindOptional_eq_ok {α β : Type} {bind : α → Bound β} {x : Option α} {y : Option β}
    (h : bindOptional bind x = .ok y) :
    (x = none ∧ y = none) ∨ ∃ a b, x = some a ∧ y = some b ∧ bind a = .ok b := by
  unfold bindOptional at h
  split at h
  · cases h
    exact .inl ⟨rfl, rfl⟩
  · next a =>
    obtain ⟨b, hb, h⟩ := bind_eq_ok.1 h
    obtain rfl := pure_eq_ok.1 h
    exact .inr ⟨a, b, rfl, rfl, hb⟩

/-- Properties that may be left out. -/
theorem boundWithin_of_bindOptional {owner : String} {object : Option ObjectEntry}
    {ps : Option (List Property)} (h : bindOptional (bindObject d owner) object = .ok ps) :
    ∀ p ∈ ps.getD [],
      BoundWithin d ((object.map fun o => Properties.typeExprs o.properties).getD []) p := by
  rcases bindOptional_eq_ok h with ⟨rfl, rfl⟩ | ⟨o, ps, rfl, rfl, hbind⟩
  · intro p hp
    cases hp
  · exact boundWithin_of_bindProperties hbind

theorem boundWithin_of_bindResource {token : String} {entry : ResourceEntry} {r : Resource}
    (h : bindResource d token entry = .ok r) :
    r.token = token ∧ ∀ p ∈ r.allProperties, BoundWithin d entry.typeExprs p := by
  unfold bindResource at h
  obtain ⟨_, -, h⟩ := bind_eq_ok.1 h
  obtain ⟨properties, hproperties, h⟩ := bind_eq_ok.1 h
  obtain ⟨inputs, hinputs, h⟩ := bind_eq_ok.1 h
  obtain ⟨state, hstate, h⟩ := bind_eq_ok.1 h
  obtain rfl := pure_eq_ok.1 h
  have hplaces := boundWithin_append (boundWithin_of_bindProperties hproperties)
    (boundWithin_of_bindProperties hinputs)
  exact ⟨rfl, boundWithin_append hplaces (boundWithin_of_bindOptional hstate)⟩

theorem boundWithin_of_bindProvider {entry : ResourceEntry} {r : Resource}
    (h : bindProvider d entry = .ok r) :
    r.token = Token.ofProvider d.name ∧
      ∀ p ∈ r.allProperties, BoundWithin d entry.typeExprs p := by
  unfold bindProvider at h
  obtain ⟨properties, hproperties, h⟩ := bind_eq_ok.1 h
  obtain ⟨inputs, hinputs, h⟩ := bind_eq_ok.1 h
  obtain rfl := pure_eq_ok.1 h
  refine ⟨rfl, fun p hp => ?_⟩
  -- the state of a provider is not bound
  rw [Resource.allProperties, Option.getD_none, List.append_nil] at hp
  have hplaces := boundWithin_append (boundWithin_of_bindProperties hproperties)
    (boundWithin_of_bindProperties hinputs)
  exact (hplaces p hp).mono (List.subset_append_left _ _)

theorem boundWithin_of_bindFunction {token : String} {entry : FunctionEntry} {f : Function}
    (h : bindFunction d token entry = .ok f) :
    ∀ p ∈ f.allProperties, BoundWithin d entry.typeExprs p := by
  unfold bindFunction at h
  obtain ⟨_, -, h⟩ := bind_eq_ok.1 h
  obtain ⟨inputs, hinputs, h⟩ := bind_eq_ok.1 h
  obtain ⟨outputs, houtputs, h⟩ := bind_eq_ok.1 h
  obtain rfl := pure_eq_ok.1 h
  exact boundWithin_append (boundWithin_of_bindOptional hinputs)
    (boundWithin_of_bindOptional houtputs)

/-- What a named type is bound to: an enum if it has elements, else an object or a primitive by the
name of its type. -/
inductive BoundEntry (d : PackageDocument) (token : String) (entry : TypeEntry) :
    TypeDefinition → Prop
  | enum {elements : List EnumEntry} : entry.elements = some elements →
      BoundEntry d token entry (.enum
        ⟨token, entry.object.description, elementTypeOf entry, elements.map bindElement⟩)
  | object {properties : List Property} : entry.elements = none →
      (∀ name, entry.object.typeName = some name → name = "object") →
      bindObject d token entry.object = .ok properties →
      BoundEntry d token entry (.object ⟨token, entry.object.description, properties⟩)
  | primitiveAlias {name : String} {p : Primitive} : entry.elements = none →
      entry.object.typeName = some name → name ≠ "object" → primitiveNamed name token = .ok p →
      BoundEntry d token entry (.primitiveAlias token (.primitive p))

/-- Whatever a named type is bound to follows its entry. -/
theorem boundEntry_of_bindTypeEntry {token : String} {entry : TypeEntry} {t : TypeDefinition}
    (h : bindTypeEntry d token entry = .ok t) : BoundEntry d token entry t := by
  unfold bindTypeEntry at h
  obtain ⟨_, -, h⟩ := bind_eq_ok.1 h
  cases helements : entry.elements with
  | some elements =>
    rw [helements] at h
    obtain rfl := pure_eq_ok.1 h
    exact .enum helements
  | none =>
    rw [helements] at h
    cases hname : entry.object.typeName with
    | none =>
      rw [hname] at h
      obtain ⟨properties, hproperties, h⟩ := bind_eq_ok.1 h
      obtain rfl := pure_eq_ok.1 h
      exact .object helements (fun name hsome => by simp [hname] at hsome) hproperties
    | some name =>
      rw [hname] at h
      dsimp only at h
      split at h
      · next hobject =>
        obtain ⟨properties, hproperties, h⟩ := bind_eq_ok.1 h
        obtain rfl := pure_eq_ok.1 h
        refine .object helements (fun other hother => ?_) hproperties
        exact (Option.some.inj (hname.symm.trans hother)).symm.trans hobject
      · next hobject =>
        obtain ⟨p, hp, h⟩ := bind_eq_ok.1 h
        obtain rfl := pure_eq_ok.1 h
        exact .primitiveAlias helements hname hobject hp

theorem boundWithin_of_bindTypeEntry {token : String} {entry : TypeEntry} {t : TypeDefinition}
    (h : bindTypeEntry d token entry = .ok t) :
    ∀ p ∈ t.allProperties, BoundWithin d (Properties.typeExprs entry.object.properties) p := by
  intro p hp
  cases boundEntry_of_bindTypeEntry h with
  | enum => cases hp
  | object _ _ hproperties => exact boundWithin_of_bindProperties hproperties p hp
  | primitiveAlias => cases hp

/-- A type with elements is bound to an enum of its token. -/
theorem bindTypeEntry_enum {token : String} {entry : TypeEntry} {t : TypeDefinition}
    (h : bindTypeEntry d token entry = .ok t) (helements : entry.elements.isSome) :
    ∃ e : EnumType, e.token = token ∧ t = .enum e := by
  cases boundEntry_of_bindTypeEntry h with
  | enum => exact ⟨_, rfl, rfl⟩
  | object hnone => simp [hnone] at helements
  | primitiveAlias hnone => simp [hnone] at helements

/-- An enum is bound from a type with elements. -/
theorem enum_of_bindTypeEntry {token : String} {entry : TypeEntry} {e : EnumType}
    (h : bindTypeEntry d token entry = .ok (.enum e)) : ∃ elements,
      entry.elements = some elements ∧
        e = ⟨token, entry.object.description, elementTypeOf entry, elements.map bindElement⟩ := by
  cases boundEntry_of_bindTypeEntry h with
  | enum helements => exact ⟨_, helements, rfl⟩

theorem token_of_bindTypeEntry {token : String} {entry : TypeEntry} {e : EnumType}
    (h : bindTypeEntry d token entry = .ok (.enum e)) : e.token = token := by
  obtain ⟨elements, -, rfl⟩ := enum_of_bindTypeEntry h
  rfl

/-- The named type, and what a reference to it by its token stands for. -/
inductive Defines (token : String) : TypeDefinition → ResolvedType → Prop
  | object {o : ObjectType} : o.token = token →
      Defines token (.object o) (.object ⟨token, false⟩)
  | enum {e : EnumType} : e.token = token → Defines token (.enum e) (.enum token e.elementType)
  | primitiveAlias {p : Primitive} : Defines token (.primitiveAlias token (.primitive p))
      (.named token (.primitive p))

theorem primitiveNamed_eq_ok {name context : String} {p : Primitive} :
    primitiveNamed name context = .ok p ↔ Primitive.ofTypeName? name = some p := by
  unfold primitiveNamed unreadable
  split
  · next q hq => rw [hq, Except.ok.injEq, Option.some_inj]
  · next hnone => simp [hnone]

/-- An entry and the references to it are classified alike. -/
theorem defines_of_bindTypeEntry {token context : String} {entry : TypeEntry}
    {definition : TypeDefinition} {t : ResolvedType} (hentry : d.types.get? token = some entry)
    (h : bindTypeEntry d token entry = .ok definition)
    (ht : bindLocalType d token context = .ok t) : Defines token definition t := by
  unfold bindLocalType at ht
  rw [hentry] at ht
  dsimp only at ht
  cases boundEntry_of_bindTypeEntry h with
  | enum helements =>
    rw [helements] at ht
    cases ht
    exact .enum rfl
  | object hnone hobject =>
    rw [hnone] at ht
    cases hname : entry.object.typeName with
    | none =>
      rw [hname] at ht
      cases ht
      exact .object rfl
    | some name =>
      obtain rfl := hobject name hname
      rw [hname] at ht
      cases ht
      exact .object rfl
  | primitiveAlias hnone hname hother hp =>
    rw [hnone, hname] at ht
    split at ht
    · next helements => cases helements
    split at ht
    · next heq => cases heq
    · next heq => exact absurd (Option.some.inj heq) hother
    · next heq =>
      obtain rfl := Option.some.inj heq
      obtain ⟨q, hq, ht⟩ := bind_eq_ok.1 ht
      obtain rfl := pure_eq_ok.1 ht
      have hsame := (primitiveNamed_eq_ok.1 hp).symm.trans (primitiveNamed_eq_ok.1 hq)
      obtain rfl := Option.some.inj hsame
      exact .primitiveAlias

end SchemaToJava.Package

namespace SchemaToJava

open Package Schema Outcome

/-- All properties of a package: those of its configuration, its types, its provider, its resources
and its functions. -/
def Package.allProperties (p : Package) : List Property :=
  p.config ++ p.types.values.flatMap TypeDefinition.allProperties ++
    (p.provider.map Resource.allProperties).getD [] ++ p.resources.flatMap Resource.allProperties ++
    p.functions.flatMap Package.Function.allProperties

variable {d : PackageDocument} {package : Package}

/-- The members of the package are those of the document, each bound by itself. -/
structure IsBound (d : PackageDocument) (package : Package) : Prop where
  name : package.name = d.name
  types : List.Forall₂ (fun entry t => t.1 = entry.1 ∧ bindTypeEntry d entry.1 entry.2 = .ok t.2)
    d.types.entries package.types.entries
  resources : List.Forall₂ (fun entry r => bindResource d entry.1 entry.2 = .ok r)
    d.resources.entries package.resources
  provider : bindOptional (bindProvider d) d.provider = .ok package.provider
  functions : List.Forall₂ (fun entry f => bindFunction d entry.1 entry.2 = .ok f)
    d.functions.entries package.functions
  config : bindProperties d "config" d.config.properties d.config.required = .ok package.config

theorem bindTypeEntries_eq_ok {entries : List (String × TypeEntry)}
    {types : List (String × TypeDefinition)} (h : bindTypeEntries d entries = .ok types) :
    List.Forall₂ (fun entry t => t.1 = entry.1 ∧ bindTypeEntry d entry.1 entry.2 = .ok t.2)
      entries types := by
  refine (mapM_eq_ok.1 h).imp ?_
  rintro ⟨token, entry⟩ t ht
  obtain ⟨definition, hdefinition, ht⟩ := bind_eq_ok.1 ht
  obtain rfl := pure_eq_ok.1 ht
  exact ⟨rfl, hdefinition⟩

theorem ascending_of_bindTypeEntries {entries : List (String × TypeEntry)}
    {types : List (String × TypeDefinition)} (h : bindTypeEntries d entries = .ok types)
    (hentries : Ascending entries) : Ascending types := by
  have heq : entries.map Prod.fst = types.map Prod.fst :=
    map_eq_map_of_forall₂ ((bindTypeEntries_eq_ok h).imp fun _ _ h => h.1.symm)
  rw [Dictionary.ascending_iff, ← heq]
  exact Dictionary.ascending_iff.1 hentries

/-- Binding a document binds its members one by one. -/
theorem isBound_of_bind (h : d.bind = .ok package) : IsBound d package := by
  unfold PackageDocument.bind at h
  obtain ⟨types, htypes, h⟩ := bind_eq_ok.1 h
  obtain ⟨resources, hresources, h⟩ := bind_eq_ok.1 h
  obtain ⟨provider, hprovider, h⟩ := bind_eq_ok.1 h
  obtain ⟨functions, hfunctions, h⟩ := bind_eq_ok.1 h
  obtain ⟨config, hconfig, h⟩ := bind_eq_ok.1 h
  obtain rfl := pure_eq_ok.1 h
  have hascending := ascending_of_bindTypeEntries htypes d.types.ascending
  refine ⟨rfl, ?_, mapM_eq_ok.1 hresources, hprovider, mapM_eq_ok.1 hfunctions, hconfig⟩
  change List.Forall₂ _ _ (Dictionary.ofList types).entries
  rw [Dictionary.entries_ofList hascending]
  exact bindTypeEntries_eq_ok htypes

/-- Every property of the package is bound from some entry of the document. -/
theorem IsBound.boundWithin (h : IsBound d package) :
    ∀ p ∈ package.allProperties, BoundWithin d d.typeExprs p := by
  have htypes : ∀ p ∈ package.types.values.flatMap TypeDefinition.allProperties, BoundWithin d
      (d.types.values.flatMap fun t => Properties.typeExprs t.object.properties) p := by
    rw [Dictionary.values, Dictionary.values, List.flatMap_map, List.flatMap_map]
    exact boundWithin_flatMap h.types fun _ _ ht => boundWithin_of_bindTypeEntry ht.2
  have hprovider : ∀ p ∈ (package.provider.map Resource.allProperties).getD [],
      BoundWithin d ((d.provider.map ResourceEntry.typeExprs).getD []) p := by
    rcases bindOptional_eq_ok h.provider with ⟨hnone, hprovider⟩ | ⟨entry, r, hentry, hr, hbind⟩
    · rw [hprovider]
      intro p hp
      cases hp
    · rw [hentry, hr]
      exact (boundWithin_of_bindProvider hbind).2
  have hresources : ∀ p ∈ package.resources.flatMap Resource.allProperties,
      BoundWithin d (d.resources.values.flatMap ResourceEntry.typeExprs) p := by
    rw [Dictionary.values, List.flatMap_map]
    exact boundWithin_flatMap h.resources fun _ _ hr => (boundWithin_of_bindResource hr).2
  have hfunctions : ∀ p ∈ package.functions.flatMap Package.Function.allProperties,
      BoundWithin d (d.functions.values.flatMap FunctionEntry.typeExprs) p := by
    rw [Dictionary.values, List.flatMap_map]
    exact boundWithin_flatMap h.functions fun _ _ hf => boundWithin_of_bindFunction hf
  have hconfig := boundWithin_of_bindProperties h.config
  exact boundWithin_append (boundWithin_append (boundWithin_append
    (boundWithin_append hconfig htypes) hprovider) hresources) hfunctions

/-- A resource or an enum in the type of some property is referred to in the document. -/
theorem IsBound.refersWithin (h : IsBound d package) :
    ∀ p ∈ package.allProperties, RefersWithin d d.typeExprs p :=
  fun p hp => (h.boundWithin p hp).refersWithin

/-- A named type with elements is an enum of the package. -/
theorem IsBound.exists_enum (h : IsBound d package) {token : String} {entry : TypeEntry}
    (hentry : d.types.get? token = some entry) (helements : entry.elements.isSome) :
    ∃ e : EnumType, e.token = token ∧ .enum e ∈ package.types.values := by
  have hentry := Dictionary.get?_eq_some_iff.1 hentry
  obtain ⟨⟨_, t⟩, ht, rfl, hbind⟩ := exists_right_of_mem h.types hentry
  obtain ⟨e, htoken, rfl⟩ := bindTypeEntry_enum hbind helements
  exact ⟨e, htoken, List.mem_map.2 ⟨_, ht, rfl⟩⟩

/-- What a reference to a named type stands for is defined in the package. -/
theorem IsBound.exists_definition (h : IsBound d package) {token context : String}
    {t : ResolvedType} (ht : bindLocalType d token context = .ok t) :
    ∃ definition, package.types.get? token = some definition ∧ Defines token definition t := by
  cases hentry : d.types.get? token with
  | none =>
    unfold bindLocalType at ht
    rw [hentry] at ht
    cases ht
  | some entry =>
    obtain ⟨⟨_, definition⟩, hmem, rfl, hbind⟩ :=
      exists_right_of_mem h.types (Dictionary.get?_eq_some_iff.1 hentry)
    exact ⟨definition, Dictionary.get?_eq_some_iff.2 hmem,
      defines_of_bindTypeEntry hentry hbind ht⟩

/-- A resource of the document is one of the package. -/
theorem IsBound.mem_resources (h : IsBound d package) {token : String}
    (hcontains : d.resources.contains token = true) :
    token ∈ package.resources.map Resource.token := by
  obtain ⟨entry, hentry⟩ := Dictionary.mem_keys_iff.1 (Dictionary.contains_iff.1 hcontains)
  obtain ⟨r, hr, hbind⟩ := exists_right_of_mem h.resources (Dictionary.get?_eq_some_iff.1 hentry)
  exact List.mem_map.2 ⟨r, hr, (boundWithin_of_bindResource hbind).1⟩

/-- The tokens of the types of a bound package are well formed. -/
theorem IsBound.parse_type (h : IsBound d package) {entry : String × TypeDefinition}
    (hentry : entry ∈ package.types.entries) : ∃ parsed, Token.parse entry.1 = .ok parsed := by
  obtain ⟨written, -, htoken, hbind⟩ := exists_left_of_mem h.types hentry
  obtain ⟨parsed, hparsed, -⟩ := bind_eq_ok.1 hbind
  exact ⟨parsed, htoken ▸ requireToken_eq_ok hparsed⟩

theorem IsBound.parse_resource (h : IsBound d package) {r : Resource}
    (hr : r ∈ package.resources) : ∃ parsed, Token.parse r.token = .ok parsed := by
  obtain ⟨written, -, hbind⟩ := exists_left_of_mem h.resources hr
  obtain ⟨htoken, -⟩ := boundWithin_of_bindResource hbind
  obtain ⟨parsed, hparsed, -⟩ := bind_eq_ok.1 hbind
  exact ⟨parsed, htoken ▸ requireToken_eq_ok hparsed⟩

theorem IsBound.parse_function (h : IsBound d package) {f : Package.Function}
    (hf : f ∈ package.functions) : ∃ parsed, Token.parse f.token = .ok parsed := by
  obtain ⟨written, -, hbind⟩ := exists_left_of_mem h.functions hf
  obtain ⟨parsed, hparsed, hbind⟩ := bind_eq_ok.1 hbind
  obtain ⟨inputs, -, hbind⟩ := bind_eq_ok.1 hbind
  obtain ⟨outputs, -, hbind⟩ := bind_eq_ok.1 hbind
  obtain rfl := pure_eq_ok.1 hbind
  exact ⟨parsed, requireToken_eq_ok hparsed⟩

/-- The package has a provider exactly if the document has one. -/
theorem IsBound.provider_cases (h : IsBound d package) :
    (d.provider = none ∧ package.provider = none) ∨
      ∃ r, package.provider = some r ∧ r.token = Token.ofProvider d.name := by
  rcases bindOptional_eq_ok h.provider with ⟨hnone, hprovider⟩ | ⟨entry, r, -, hr, hbind⟩
  · exact .inl ⟨hnone, hprovider⟩
  · exact .inr ⟨r, hr, (boundWithin_of_bindProvider hbind).1⟩

end SchemaToJava
