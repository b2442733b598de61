import SchemaToJava.Package.Binding
import SchemaToJava.Proofs.Dictionaries
import SchemaToJava.Proofs.Outcomes
import SchemaToJava.Proofs.TypeNodes

/-!
Where the resources and enums in bound types come from. Each stands for a reference that the
document writes somewhere, and following that reference is what gave it.
-/
namespace SchemaToJava.Package

open Schema Outcome

def referencesIn (exprs : List TypeExpr) : List String := exprs.filterMap TypeExpr.reference

/-- The type is a reference to a resource or an enum. -/
inductive ResolvedType.IsMember : ResolvedType → Prop
  | resource {token : String} : IsMember (.resource token)
  | enum {token : String} {p : Primitive} : IsMember (.enum token p)

/-- The reference is written in one of the types, and following it gives the type. -/
def IsReferred (d : PackageDocument) (exprs : List TypeExpr) (n : ResolvedType) : Prop :=
  ∃ reference ∈ referencesIn exprs, ∃ context : String, bindReference d reference context = .ok n

variable {d : PackageDocument}

theorem IsReferred.mono {exprs others : List TypeExpr} {n : ResolvedType}
    (h : IsReferred d exprs n) (hsub : exprs ⊆ others) : IsReferred d others n := by
  obtain ⟨reference, hmem, hbind⟩ := h
  obtain ⟨e, he, hreference⟩ := List.mem_filterMap.1 hmem
  exact ⟨reference, List.mem_filterMap.2 ⟨e, hsub he, hreference⟩, hbind⟩

/-- The reference names a resource by an address, which is not looked up in the document. -/
def IsAddress (reference token : String) : Prop :=
  ∃ origin fragment escaped : String, splitFragment reference = some (origin, fragment) ∧
    origin.isEmpty = false ∧ Text.afterLead "/resources/" fragment = some escaped ∧
    unescapeToken escaped = token

inductive Target (d : PackageDocument) (reference : String) : ResolvedType → Prop
  | primitive {p : Primitive} : Target d reference (.primitive p)
  | object {key : ObjectKey} : Target d reference (.object key)
  | named {token : String} {p : Primitive} : Target d reference (.named token (.primitive p))
  | enum {token : String} {p : Primitive} {entry : TypeEntry} :
      d.types.get? token = some entry → entry.elements.isSome → Target d reference (.enum token p)
  | provider : reference = "#/provider" → Target d reference (.resource (Token.ofProvider d.name))
  | resource {token : String} :
      d.resources.contains token = true → Target d reference (.resource token)
  | address {token : String} : IsAddress reference token → Target d reference (.resource token)

/-- A reference to a named type is followed to what that type is bound to. -/
theorem target_of_bindLocalType {reference token context : String} {t : ResolvedType}
    (h : bindLocalType d token context = .ok t) : Target d reference t := by
  unfold bindLocalType at h
  split at h
  · cases h
  · next entry hentry =>
    split at h
    · next helements =>
      cases h
      exact .enum hentry helements
    · split at h
      · cases h
        exact .object
      · cases h
        exact .object
      · obtain ⟨p, -, h⟩ := bind_eq_ok.1 h
        obtain rfl := pure_eq_ok.1 h
        exact .named

/-- The reference names a member of a kind, which is part of its fragment, by a token. -/
def NamesAt (kind reference origin token : String) : Prop :=
  Text.afterLead "pulumi.json#/" reference = none ∧
    ∃ fragment escaped : String, splitFragment reference = some (origin, fragment) ∧
      Text.afterLead kind fragment = some escaped ∧ unescapeToken escaped = token

/-- How a reference is followed to what it stands for. -/
inductive Denotes (d : PackageDocument) (reference context : String) : ResolvedType → Prop
  | builtin {p : Primitive} : Denotes d reference context (.primitive p)
  | provider : reference = "#/provider" →
      Denotes d reference context (.resource (Token.ofProvider d.name))
  | localType {origin token : String} {t : ResolvedType} :
      NamesAt "/types/" reference origin token → origin.isEmpty = true →
      bindLocalType d token context = .ok t → Denotes d reference context t
  | foreignType {origin token : String} {parsed : Token} :
      NamesAt "/types/" reference origin token → origin.isEmpty = false →
      Token.parse token = .ok parsed → Denotes d reference context (.object ⟨token, false⟩)
  | resource {origin token : String} {parsed : Token} :
      NamesAt "/resources/" reference origin token →
      (origin.isEmpty = true → d.resources.contains token = true) →
      Token.parse token = .ok parsed → Denotes d reference context (.resource token)

theorem requireToken_eq_ok {token : String} {parsed : Token} (h : requireToken token = .ok parsed) :
    Token.parse token = .ok parsed := by
  unfold requireToken unreadable at h
  split at h
  · next hparse =>
    cases h
    exact hparse
  · cases h

/-- A reference is only bound to what it stands for. -/
theorem denotes_of_bindReference {reference context : String} {t : ResolvedType}
    (h : bindReference d reference context = .ok t) : Denotes d reference context t := by
  unfold bindReference at h
  dsimp only at h
  split at h
  · split at h
    · cases h
      exact .builtin
    · cases h
  · next hbuiltin =>
    split at h
    · next hprovider =>
      cases h
      exact .provider hprovider
    · split at h
      · cases h
      · next origin fragment hsplit =>
        split at h
        · next escaped hescaped =>
          obtain ⟨parsed, hparsed, h⟩ := bind_eq_ok.1 h
          have hparsed := requireToken_eq_ok hparsed
          have hnames : NamesAt "/types/" reference origin (unescapeToken escaped) :=
            ⟨hbuiltin, fragment, escaped, hsplit, hescaped, rfl⟩
          split at h
          · next horigin => exact .localType hnames horigin h
          · next horigin =>
            cases h
            exact .foreignType hnames (Bool.eq_false_iff.2 horigin) hparsed
        · next escaped _ hescaped =>
          obtain ⟨parsed, hparsed, h⟩ := bind_eq_ok.1 h
          have hparsed := requireToken_eq_ok hparsed
          split at h
          · cases h
          · next hfound =>
            cases h
            rw [Bool.and_eq_true, not_and, Bool.not_eq_true', Bool.not_eq_false] at hfound
            exact .resource ⟨hbuiltin, fragment, escaped, hsplit, hescaped, rfl⟩ hfound hparsed
        · cases h

theorem target_of_bindReference {reference context : String} {t : ResolvedType}
    (h : bindReference d reference context = .ok t) : Target d reference t := by
  cases denotes_of_bindReference h with
  | builtin => exact .primitive
  | provider hprovider => exact .provider hprovider
  | localType _ _ hbind => exact target_of_bindLocalType hbind
  | foreignType => exact .object
  | @resource origin token parsed hnames hfound _ =>
    by_cases horigin : origin.isEmpty = true
    · exact .resource (hfound horigin)
    · obtain ⟨-, fragment, escaped, hsplit, hescaped, htoken⟩ := hnames
      exact .address ⟨origin, fragment, escaped, hsplit, Bool.eq_false_iff.2 horigin, hescaped,
        htoken⟩

theorem not_isNode_primitive {n : ResolvedType} (hmember : n.IsMember) (p : Primitive) :
    ¬ n.IsNode (.primitive p) := by
  intro hn
  cases hn
  cases hmember

/-- What a reference stands for has no resource or enum in it but itself. -/
theorem Target.eq_of_isNode {reference : String} {n t : ResolvedType} (h : Target d reference t)
    (hn : n.IsNode t) (hmember : n.IsMember) : n = t := by
  cases h with
  | primitive => exact absurd hn (not_isNode_primitive hmember _)
  | object =>
    cases hn
    rfl
  | named =>
    cases hn with
    | root => rfl
    | named hn => exact absurd hn (not_isNode_primitive hmember _)
  | enum =>
    cases hn
    rfl
  | provider =>
    cases hn
    rfl
  | resource =>
    cases hn
    rfl
  | address =>
    cases hn
    rfl

/-- The type is built in, or put together from others. -/
inductive ResolvedType.IsComposed : ResolvedType → Prop
  | primitive {p : Primitive} : IsComposed (.primitive p)
  | array {t : ResolvedType} : IsComposed (.array t)
  | map {t : ResolvedType} : IsComposed (.map t)
  | union {ts : List ResolvedType} : IsComposed (.union ts)

/-- The type is composed, or stands in what a reference of one of the types leads to. -/
def IsWithin (d : PackageDocument) (context : String) (exprs : List TypeExpr) (n : ResolvedType) :
    Prop :=
  n.IsComposed ∨ ∃ reference ∈ referencesIn exprs, ∃ t : ResolvedType,
    bindReference d reference context = .ok t ∧ n.IsNode t

theorem IsWithin.mono {context : String} {exprs others : List TypeExpr} {n : ResolvedType}
    (h : IsWithin d context exprs n) (hsub : exprs ⊆ others) : IsWithin d context others n := by
  rcases h with h | ⟨reference, hmem, t, hbind, hn⟩
  · exact .inl h
  · obtain ⟨e, he, hreference⟩ := List.mem_filterMap.1 hmem
    exact .inr ⟨reference, List.mem_filterMap.2 ⟨e, hsub he, hreference⟩, t, hbind, hn⟩

theorem isWithin_of_primitive {context : String} {exprs : List TypeExpr} {n : ResolvedType}
    {p : Primitive} (hn : n.IsNode (.primitive p)) : IsWithin d context exprs n := by
  cases hn
  exact .inl .primitive

mutual

/-- What stands in a bound type is composed, or stands in what a reference leads to. -/
theorem isWithin_of_bindType {context : String} {n : ResolvedType} : (e : TypeExpr) →
    {t : ResolvedType} → bindType d context e = .ok t → n.IsNode t →
      IsWithin d context e.withParts n
  | ⟨typeName, reference, items, additional, oneOf, plain⟩, t, h, hn => by
    unfold bindType at h
    unfold TypeExpr.withParts
    split at h
    · next alternatives =>
      obtain ⟨ts, hts, h⟩ := bind_eq_ok.1 h
      obtain rfl := pure_eq_ok.1 h
      cases hn with
      | root => exact .inl .union
      | union ht hn =>
        refine (isWithin_of_bindTypes alternatives hts ht hn).mono ?_
        intro e he
        simp [alternativeParts, he]
    · split at h
      · next reference => exact .inr ⟨reference, by simp [referencesIn], t, h, hn⟩
      · split at h
        · cases h
        · split at h
          · cases h
          · next items =>
            obtain ⟨element, helement, h⟩ := bind_eq_ok.1 h
            obtain rfl := pure_eq_ok.1 h
            cases hn with
            | root => exact .inl .array
            | array hn =>
              refine (isWithin_of_bindType items helement hn).mono ?_
              intro e he
              simp [optionParts, he]
        · split at h
          · cases h
            cases hn with
            | root => exact .inl .map
            | map hn => exact isWithin_of_primitive hn
          · next additional =>
            obtain ⟨element, helement, h⟩ := bind_eq_ok.1 h
            obtain rfl := pure_eq_ok.1 h
            cases hn with
            | root => exact .inl .map
            | map hn =>
              refine (isWithin_of_bindType additional helement hn).mono ?_
              intro e he
              simp [optionParts, he]
        · obtain ⟨p, -, h⟩ := bind_eq_ok.1 h
          obtain rfl := pure_eq_ok.1 h
          exact isWithin_of_primitive hn

/-- The alternatives of a union are bound one by one, so each node stands in what one of them says.
-/
theorem isWithin_of_bindTypes {context : String} {n : ResolvedType} : (es : List TypeExpr) →
    {ts : List ResolvedType} → bindTypes d context es = .ok ts →
      ∀ {t : ResolvedType}, t ∈ ts → n.IsNode t → IsWithin d context (listParts es) n
  | [], ts, h, t, ht, hn => by
    cases h
    cases ht
  | e :: es, ts, h, t, ht, hn => by
    unfold bindTypes at h
    obtain ⟨first, hfirst, h⟩ := bind_eq_ok.1 h
    obtain ⟨others, hothers, h⟩ := bind_eq_ok.1 h
    obtain rfl := pure_eq_ok.1 h
    unfold listParts
    rcases List.mem_cons.1 ht with rfl | ht
    · exact (isWithin_of_bindType e hfirst hn).mono (List.subset_append_left _ _)
    · exact (isWithin_of_bindTypes es hothers ht hn).mono (List.subset_append_right _ _)

end

/-- A resource or an enum in a bound type is what some reference in its expression stands for. -/
theorem isReferred_of_bindType {context : String} {e : TypeExpr} {n t : ResolvedType}
    (hmember : n.IsMember) (h : bindType d context e = .ok t) (hn : n.IsNode t) :
    IsReferred d e.withParts n := by
  rcases isWithin_of_bindType e h hn with hcomposed | ⟨reference, hmem, u, hbind, hn⟩
  · cases hcomposed <;> cases hmember
  · obtain rfl := (target_of_bindReference hbind).eq_of_isNode hn hmember
    exact ⟨reference, hmem, context, hbind⟩

end SchemaToJava.Package
