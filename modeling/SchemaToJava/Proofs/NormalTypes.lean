import SchemaToJava.Proofs.BoundPackages

/-!
The normal form of bound types. Whatever stands in the type of a property is built in, is put
together from other types, or is what a reference leads to. References and definitions are
classified alike, so an enum or an alias in a type is the one that the package defines, and an
object or a resource is the package's own unless a reference names it at another place.
-/
namespace SchemaToJava.Package

open Schema Outcome

/-- What a type that stands in a bound one can be. -/
inductive IsResolved (d : PackageDocument) (package : Package) : ResolvedType → Prop
  | composed {t : ResolvedType} : t.IsComposed → IsResolved d package t
  | object {token : String} {o : ObjectType} : package.types.get? token = some (.object o) →
      IsResolved d package (.object ⟨token, false⟩)
  | foreignObject {reference origin token : String} {parsed : Token} :
      reference ∈ referencesIn d.typeExprs → NamesAt "/types/" reference origin token →
      origin.isEmpty = false → Token.parse token = .ok parsed →
      IsResolved d package (.object ⟨token, false⟩)
  | enum {token : String} {e : EnumType} : package.types.get? token = some (.enum e) →
      e.token = token → IsResolved d package (.enum token e.elementType)
  | named {token : String} {p : Primitive} :
      package.types.get? token = some (.primitiveAlias token (.primitive p)) →
      IsResolved d package (.named token (.primitive p))
  | provider : "#/provider" ∈ referencesIn d.typeExprs →
      IsResolved d package (.resource (Token.ofProvider package.name))
  | resource {token : String} {parsed : Token} : token ∈ package.resources.map Resource.token →
      Token.parse token = .ok parsed → IsResolved d package (.resource token)
  | foreignResource {reference origin token : String} {parsed : Token} :
      reference ∈ referencesIn d.typeExprs → NamesAt "/resources/" reference origin token →
      origin.isEmpty = false → Token.parse token = .ok parsed →
      IsResolved d package (.resource token)

variable {d : PackageDocument} {package : Package}

/-- What stands in a type that a reference stands for. -/
theorem isResolved_of_bindReference (h : IsBound d package) {reference context : String}
    {n t : ResolvedType} (hwritten : reference ∈ referencesIn d.typeExprs)
    (hbind : bindReference d reference context = .ok t) (hn : n.IsNode t) :
    IsResolved d package n := by
  cases denotes_of_bindReference hbind with
  | builtin =>
    cases hn
    exact .composed .primitive
  | provider hprovider =>
    cases hn
    rw [← h.name]
    exact .provider (hprovider ▸ hwritten)
  | localType _ _ hlocal =>
    obtain ⟨definition, hget, hdefines⟩ := h.exists_definition hlocal
    cases hdefines with
    | object =>
      cases hn
      exact .object hget
    | enum htoken =>
      cases hn
      exact .enum hget htoken
    | primitiveAlias =>
      cases hn with
      | root => exact .named hget
      | named hn =>
        cases hn
        exact .composed .primitive
  | foreignType hnames horigin hparsed =>
    cases hn
    exact .foreignObject hwritten hnames horigin hparsed
  | @resource origin token parsed hnames hfound hparsed =>
    cases hn
    by_cases horigin : origin.isEmpty = true
    · exact .resource (h.mem_resources (hfound horigin)) hparsed
    · exact .foreignResource hwritten hnames (Bool.eq_false_iff.2 horigin) hparsed

theorem isResolved_of_bindType (h : IsBound d package) {context : String} {e : TypeExpr}
    {n t : ResolvedType} (hexprs : e.withParts ⊆ d.typeExprs)
    (hbind : bindType d context e = .ok t) (hn : n.IsNode t) : IsResolved d package n := by
  rcases isWithin_of_bindType e hbind hn with hcomposed | ⟨reference, hmem, u, hreference, hn⟩
  · exact .composed hcomposed
  · obtain ⟨part, hpart, hwritten⟩ := List.mem_filterMap.1 hmem
    exact isResolved_of_bindReference h (List.mem_filterMap.2 ⟨part, hexprs hpart, hwritten⟩)
      hreference hn

/-- The types of a bound package, without the option of those that are not required. -/
theorem exists_resolved (h : IsBound d package) {p : Property}
    (hp : p ∈ package.allProperties) :
    ∃ t, p.type = (if p.required then t else .optional t) ∧
      ∀ n : ResolvedType, n.IsNode t → IsResolved d package n := by
  obtain ⟨context, e, t, hexprs, hbind, htype⟩ := (h.boundWithin p hp).exists_type
  have hresolved (n : ResolvedType) (hn : n.IsNode t) : IsResolved d package n :=
    isResolved_of_bindType h hexprs hbind hn
  have hoption : t.asOptional = .optional t := by
    cases hresolved t .root with
    | composed hcomposed => cases hcomposed <;> rfl
    | _ => rfl
  exact ⟨t, hoption ▸ htype, hresolved⟩

/-- The type of a property that is required, with every name in it resolved. -/
structure IsNormal (package : Package) (t : ResolvedType) : Prop where
  optional : ∀ u, ¬ (ResolvedType.optional u).IsNode t
  input : ∀ u, ¬ (ResolvedType.input u).IsNode t
  object : ∀ key, (ResolvedType.object key).IsNode t → key.inputShape = false
  /-- An enum is that of the package with its token and its kind of elements. -/
  enum : ∀ token p, (ResolvedType.enum token p).IsNode t →
    ∃ e : EnumType, package.types.get? token = some (.enum e) ∧ e.token = token ∧ e.elementType = p
  /-- An alias is that of the package with its token, and stands for a built-in type. -/
  named : ∀ token u, (ResolvedType.named token u).IsNode t →
    package.types.get? token = some (.primitiveAlias token u) ∧ ∃ p, u = .primitive p

/-- The type names no object and no resource but those of the package. -/
structure IsClosed (package : Package) (t : ResolvedType) : Prop where
  object : ∀ key, (ResolvedType.object key).IsNode t →
    ∃ o : ObjectType, package.types.get? key.token = some (.object o)
  resource : ∀ token, (ResolvedType.resource token).IsNode t →
    token ∈ package.resources.map Resource.token ∨ token = Token.ofProvider package.name

/-- A type is normal if every name in it is resolved. -/
theorem isNormal_of_isResolved {t : ResolvedType}
    (h : ∀ n : ResolvedType, n.IsNode t → IsResolved d package n) : IsNormal package t where
  optional u hu := by
    cases h _ hu with
    | composed hcomposed => cases hcomposed
  input u hu := by
    cases h _ hu with
    | composed hcomposed => cases hcomposed
  object key hkey := by
    cases h _ hkey with
    | composed hcomposed => cases hcomposed
    | object | foreignObject => rfl
  enum token p hp := by
    cases h _ hp with
    | composed hcomposed => cases hcomposed
    | enum hget htoken => exact ⟨_, hget, htoken, rfl⟩
  named token u hu := by
    cases h _ hu with
    | composed hcomposed => cases hcomposed
    | named hget => exact ⟨hget, _, rfl⟩

/-- The reference names something in another document, or at an address of its own. -/
def isForeign (reference : String) : Bool :=
  (Text.afterLead "pulumi.json#/" reference).isNone &&
    (splitFragment reference).any fun parts => !parts.1.isEmpty

theorem NamesAt.isForeign {kind reference origin token : String}
    (h : NamesAt kind reference origin token) (horigin : origin.isEmpty = false) :
    isForeign reference = true := by
  obtain ⟨hbuiltin, fragment, escaped, hsplit, -, -⟩ := h
  simp [Package.isForeign, hbuiltin, hsplit, horigin]

/-- A type is closed if its nodes are resolved and no reference leads out of the document. -/
theorem isClosed_of_isResolved {t : ResolvedType}
    (hforeign : ∀ reference ∈ referencesIn d.typeExprs, isForeign reference = false)
    (h : ∀ n : ResolvedType, n.IsNode t → IsResolved d package n) : IsClosed package t where
  object key hkey := by
    cases h _ hkey with
    | composed hcomposed => cases hcomposed
    | object hget => exact ⟨_, hget⟩
    | foreignObject hwritten hnames horigin =>
      exact absurd (hnames.isForeign horigin) (Bool.eq_false_iff.1 (hforeign _ hwritten))
  resource token htoken := by
    cases h _ htoken with
    | composed hcomposed => cases hcomposed
    | provider => exact .inr rfl
    | resource hmem => exact .inl hmem
    | foreignResource hwritten hnames horigin =>
      exact absurd (hnames.isForeign horigin) (Bool.eq_false_iff.1 (hforeign _ hwritten))

/-- Binding gives every property a type in normal form, which is optional exactly if the property
is not required, and which stays within the package if no reference leads out of the document. -/
theorem normalTypes_of_bind (h : d.bind = .ok package) : ∀ p ∈ package.allProperties,
    ∃ t, p.type = (if p.required then t else .optional t) ∧ IsNormal package t ∧
      ((∀ reference ∈ referencesIn d.typeExprs, isForeign reference = false) →
        IsClosed package t) := by
  intro p hp
  obtain ⟨t, htype, hresolved⟩ := exists_resolved (isBound_of_bind h) hp
  exact ⟨t, htype, isNormal_of_isResolved hresolved,
    fun hforeign => isClosed_of_isResolved hforeign hresolved⟩

/-- A package with an enum, an alias, an object that refers to itself and to a resource, and a
setting in which all of these stand; nothing leads out of the document. -/
theorem normalTypes_of_bind_of_local :
    let referring (reference : String) : TypeExpr := { reference }
    let d : PackageDocument := {
      name := "p"
      config := { properties := .ofList [("c", { type := { oneOf := some [
        { typeName := "array", items := referring "#/types/p:m:E" }, referring "#/types/p:m:A",
        referring "#/types/p:m:O", referring "pulumi.json#/Any", referring "#/provider"] } })] }
      types := .ofList [("p:m:A", { object := { typeName := "integer" } }),
        ("p:m:E", ⟨{ typeName := "string" }, some [{ value := .string "a" }]⟩),
        ("p:m:O", { object := {
          properties := .ofList [("o", { type := referring "#/types/p:m:O" }),
            ("r", { type := referring "#/resources/p:m:R" })]
          required := ["r"] } })]
      resources := .ofList [("p:m:R", { object := {} })] }
    ∃ package, d.bind = .ok package ∧
      package.allProperties.map (fun p => (p.name, p.required)) =
        [("c", false), ("o", false), ("r", true)] ∧
      ∀ p ∈ package.allProperties, ∃ t, p.type = (if p.required then t else .optional t) ∧
        IsNormal package t ∧ IsClosed package t := by
  intro referring d
  have hbound : d.bind.toOption.map (fun package =>
      package.allProperties.map fun p => (p.name, p.required)) =
        some [("c", false), ("o", false), ("r", true)] := by
    decide +kernel
  have hlocal : ∀ reference ∈ referencesIn d.typeExprs, isForeign reference = false := by
    decide +kernel
  obtain ⟨package, hpackage, hproperties⟩ := Option.map_eq_some_iff.1 hbound
  have h : d.bind = .ok package := toOption_eq_some.1 hpackage
  refine ⟨package, h, hproperties, fun p hp => ?_⟩
  obtain ⟨t, htype, hnormal, hclosed⟩ := normalTypes_of_bind h p hp
  exact ⟨t, htype, hnormal, hclosed hlocal⟩

end SchemaToJava.Package
