import SchemaToJava.Proofs.CaseTokens
import SchemaToJava.Proofs.MergedDocuments
import SchemaToJava.Proofs.RenamedTokens

/-!
What stands for a type that merging takes out: the smallest of the tokens that agree with its own
but for case. A reference to the type, whichever way it is written, becomes one to that token, and
following it gives the same as before with the one token in the place of the other.
-/
namespace SchemaToJava.Schema

open Package Outcome

def IsRemoved (d : PackageDocument) (token : String) : Prop :=
  token ∈ d.types.keys ∧ token ∉ d.merged.types.keys

instance (d : PackageDocument) (token : String) : Decidable (IsRemoved d token) :=
  inferInstanceAs (Decidable (_ ∧ _))

def PackageDocument.smallestVariant (d : PackageDocument) (token : String) : String :=
  ((caseGroup d.types (Text.lowercase token)).head?.map Prod.fst).getD token

/-- The token that stands for the given one after merging. -/
def PackageDocument.representative (d : PackageDocument) (token : String) : String :=
  if IsRemoved d token then d.smallestVariant token else token

/-- A reference to a named type at another place names its token. -/
def NamesElsewhere (reference token : String) : Prop :=
  ∃ origin fragment escaped : String, splitFragment reference = some (origin, fragment) ∧
    origin.isEmpty = false ∧ Text.afterLead "/types/" fragment = some escaped ∧
    unescapeToken escaped = token

variable {d : PackageDocument} {token kept reference : String}

/-- A type is taken out exactly if another one stands for it. -/
theorem isRemoved_iff : IsRemoved d token ↔ ∃ kept, IsRenamed d token kept := by
  unfold IsRemoved
  rw [mem_keys_merged]
  constructor
  · rintro ⟨hmem, hnot⟩
    by_contra hnone
    exact hnot ⟨hmem, fun kept hrenamed => hnone ⟨kept, hrenamed⟩⟩
  · rintro ⟨kept, hrenamed⟩
    exact ⟨hrenamed.variant.mem, fun h => h.2 kept hrenamed⟩

theorem smallestVariant_eq (h : IsVariant d.types token kept) : d.smallestVariant token = kept := by
  obtain ⟨body, hbody⟩ := Dictionary.mem_keys_iff.1 h.smallest.mem
  have hmem := mem_caseGroup.2 ⟨Dictionary.get?_eq_some_iff.1 hbody, h.agree.symm⟩
  unfold PackageDocument.smallestVariant
  cases hgroup : caseGroup d.types (Text.lowercase token) with
  | nil => simp [hgroup] at hmem
  | cons first others =>
    obtain ⟨-, hsmallest, -⟩ := of_caseGroup_cons hgroup
    have hfirst : first ∈ caseGroup d.types (Text.lowercase token) := hgroup ▸ List.mem_cons_self
    have hagree := (mem_caseGroup.1 hfirst).2
    exact hsmallest.eq h.smallest (hagree.trans h.agree)

theorem representative_eq (h : IsRenamed d token kept) : d.representative token = kept := by
  have hremoved : IsRemoved d token := isRemoved_iff.2 ⟨kept, h⟩
  rw [PackageDocument.representative, if_pos hremoved, smallestVariant_eq h.variant]

theorem representative_eq_self (h : ¬ IsRemoved d token) : d.representative token = token :=
  if_neg h

theorem IsSmallest.not_isRemoved (h : IsSmallest d.types token) : ¬ IsRemoved d token := by
  intro hremoved
  obtain ⟨kept, hrenamed⟩ := isRemoved_iff.1 hremoved
  exact h.not_isRenamed kept hrenamed

theorem lookup_renamings_eq_none (h : ¬ IsRemoved d token) : d.renamings.lookup token = none := by
  rw [← Option.isNone_iff_eq_none, lookup_renamings_isNone]
  exact fun kept hrenamed => h (isRemoved_iff.2 ⟨kept, hrenamed⟩)

theorem TypeEntry.sameBody_iff {t u : TypeEntry} : t.sameBody u = true ↔
    t.object.typeName = u.object.typeName ∧ t.object.required = u.object.required ∧
      List.Forall₂ (fun p q => p.1 = q.1 ∧ p.2.sameBody q.2 = true) t.object.properties.entries
        u.object.properties.entries ∧
      Option.Rel (List.Forall₂ fun e f => e.sameBody f = true) t.elements u.elements := by
  have hagree {α : Type} {agree : α → α → Bool} (xs ys : List α) :
      allAgree agree xs ys = true ↔ List.Forall₂ (fun x y => agree x y = true) xs ys := by
    induction xs generalizing ys with
    | nil => cases ys <;> simp [allAgree]
    | cons x xs ih => cases ys <;> simp [allAgree, ih]
  unfold TypeEntry.sameBody
  cases t.elements <;> cases u.elements <;> simp [hagree] <;> tauto

/-- The kind of a type, by which references to it are told apart, is that of its representative. -/
theorem exists_get?_merged (h : token ∈ d.types.keys) : ∃ t t', d.types.get? token = some t ∧
    d.merged.types.get? (d.representative token) = some t' ∧
    t'.elements.isSome = t.elements.isSome ∧ t'.object.typeName = t.object.typeName := by
  obtain ⟨t, ht⟩ := Dictionary.mem_keys_iff.1 h
  by_cases hremoved : IsRemoved d token
  · obtain ⟨kept, hrenamed⟩ := isRemoved_iff.1 hremoved
    obtain ⟨body, hbody⟩ := Dictionary.mem_keys_iff.1 hrenamed.variant.smallest.mem
    have hstays := hrenamed.variant.smallest.not_isRenamed
    obtain ⟨hname, -, -, helements⟩ := TypeEntry.sameBody_iff.1 (hrenamed.sameBody t body ht hbody)
    rw [representative_eq hrenamed]
    refine ⟨t, _, ht, get?_merged_eq_some.2 ⟨hstays, body, hbody, rfl⟩, ?_, hname.symm⟩
    change body.elements.isSome = t.elements.isSome
    generalize t.elements = es at helements ⊢
    generalize body.elements = fs at helements ⊢
    cases helements <;> rfl
  · have hstays : ∀ kept, ¬ IsRenamed d token kept := fun kept hrenamed =>
      hremoved (isRemoved_iff.2 ⟨kept, hrenamed⟩)
    rw [representative_eq_self hremoved]
    exact ⟨t, _, ht, get?_merged_eq_some.2 ⟨hstays, t, ht, rfl⟩, rfl, rfl⟩

/-- A reference that is led to the smallest variant is followed to the same definition. -/
theorem follows_bindLocalType {context context' : String} :
    Follows (ResolvedType.mapTokens d.representative) (bindLocalType d token context)
      (bindLocalType d.merged (d.representative token) context') := by
  unfold bindLocalType
  by_cases hmem : token ∈ d.types.keys
  · obtain ⟨t, t', ht, ht', helements, hname⟩ := exists_get?_merged hmem
    rw [ht, ht']
    dsimp only
    rw [helements, elementTypeOf, elementTypeOf, hname]
    split
    · exact follows_ok rfl
    · split
      · exact follows_ok rfl
      · exact follows_ok rfl
      · exact (follows_primitiveNamed _ context context').bind fun p _ => follows_ok rfl
  · have hremoved : ¬ IsRemoved d token := fun h => hmem h.1
    have hnone : d.types.get? token = none := by
      rw [← Option.not_isSome_iff_eq_none]
      exact fun h => hmem (Dictionary.contains_iff.1 h)
    have hnone' : d.merged.types.get? token = none := by
      rw [← Option.not_isSome_iff_eq_none]
      exact fun h => hmem (mem_keys_merged.1 (Dictionary.contains_iff.1 h)).1
    rw [representative_eq_self hremoved, hnone, hnone']
    exact follows_error

/-- A reference is what stands before the first `#` and what follows it. -/
theorem eq_of_splitFragment {origin fragment : String}
    (h : splitFragment reference = some (origin, fragment)) :
    reference = origin ++ "#" ++ fragment := by
  unfold splitFragment at h
  dsimp only at h
  split at h
  · cases h
  · next c rest hdrop =>
    have hsharp : c = '#' := by
      have hhead := List.head?_dropWhile_not (fun c => decide (c ≠ '#')) reference.toList
      rw [hdrop] at hhead
      simpa using hhead
    obtain ⟨rfl, rfl⟩ := Prod.mk.inj (Option.some.inj h)
    have hparts := List.takeWhile_append_dropWhile (p := fun c => decide (c ≠ '#'))
      (l := reference.toList)
    rw [hdrop, hsharp] at hparts
    rw [← String.toList_inj]
    exact hparts.symm.trans (by simp)

/-- Following a reference to a named type of the document. -/
theorem bindReference_types (d : PackageDocument) (escaped context : String) :
    bindReference d (typesReference ++ escaped) context =
      (requireToken (unescapeToken escaped) >>= fun _ =>
        bindLocalType d (unescapeToken escaped) context) := by
  have hbuiltin : Text.afterLead "pulumi.json#/" (typesReference ++ escaped) = none := by
    simp [Text.afterLead, Text.dropLead, typesReference]
  have hprovider : typesReference ++ escaped ≠ "#/provider" := by
    intro h
    simpa [typesReference] using congrArg String.toList h
  have hsplit : splitFragment (typesReference ++ escaped) = some ("", "/types/" ++ escaped) := by
    simp [splitFragment, typesReference, ← String.toList_inj]
  have htypes : Text.afterLead "/types/" ("/types/" ++ escaped) = some escaped :=
    Text.afterLead_eq_some.2 rfl
  unfold bindReference
  rw [hbuiltin]
  dsimp only
  rw [if_neg hprovider, hsplit]
  dsimp only
  rw [htypes]
  rfl

/-- Tokens that differ by case alone are accepted alike. -/
theorem exists_requireToken_iff (h : Text.lowercase token = Text.lowercase kept) :
    (∃ t, requireToken token = .ok t) ↔ ∃ t, requireToken kept = .ok t := by
  have hrequire (token : String) :
      (∃ t, requireToken token = .ok t) ↔ ∃ t, Token.parse token = .ok t := by
    unfold requireToken unreadable
    cases Token.parse token <;> simp
  rw [hrequire, hrequire]
  exact exists_parse_of_lowercase h

theorem follows_requireToken {α : Type} {g : α → α} {x y : Bound α}
    (hagree : Text.lowercase token = Text.lowercase kept) (h : Follows g x y) :
    Follows g (requireToken token >>= fun _ => x) (requireToken kept >>= fun _ => y) := by
  have haccepted := exists_requireToken_iff hagree
  cases htoken : requireToken token with
  | ok t =>
    obtain ⟨t', hkept⟩ := haccepted.1 ⟨t, htoken⟩
    rw [hkept]
    exact h
  | error e =>
    cases hkept : requireToken kept with
    | ok t' =>
      obtain ⟨t, ht⟩ := haccepted.2 ⟨t', hkept⟩
      rw [htoken] at ht
      cases ht
    | error e' => exact follows_error

/-- The entries that remain, with their references changed. -/
theorem entries_types_merged (d : PackageDocument) : d.merged.types.entries =
    (d.types.entries.filter fun entry => !decide (IsRemoved d entry.1)).map
      fun entry => (entry.1, entry.2.mapReferences (redirect d.renamings)) := by
  have hkeep (token : String) :
      (d.renamings.lookup token).isNone = !decide (IsRemoved d token) := by
    rw [Bool.eq_iff_iff, lookup_renamings_isNone, Bool.not_eq_true', decide_eq_false_iff_not,
      isRemoved_iff, not_exists]
  rw [merged_eq]
  simp only [← hkeep]
  rfl

/-- Everything but the named types is there with its references changed. -/
theorem places_merged (d : PackageDocument) :
    d.merged.provider = d.provider.map (ResourceEntry.mapReferences (redirect d.renamings)) ∧
      d.merged.resources = d.resources.mapValues
        (ResourceEntry.mapReferences (redirect d.renamings)) ∧
      d.merged.functions = d.functions.mapValues
        (FunctionEntry.mapReferences (redirect d.renamings)) ∧
      d.merged.config.properties =
        Properties.mapReferences (redirect d.renamings) d.config.properties ∧
      d.merged.config.required = d.config.required := by
  rw [merged_eq]
  exact ⟨rfl, rfl, rfl, rfl, rfl⟩

theorem name_merged (d : PackageDocument) : d.merged.name = d.name := by
  rw [merged_eq]
  rfl

theorem contains_resources_merged (d : PackageDocument) (token : String) :
    d.merged.resources.contains token = d.resources.contains token := by
  rw [(places_merged d).2.1]
  exact Dictionary.contains_mapValues _ _ _

/-- A reference to a type of the document leads to what stands for the type. -/
theorem follows_bindReference_types {escaped context context' : String} :
    Follows (ResolvedType.mapTokens d.representative)
      (bindReference d (typesReference ++ escaped) context)
      (bindReference d.merged (redirect d.renamings (typesReference ++ escaped)) context') := by
  have hlead : Text.afterLead typesReference (typesReference ++ escaped) = some escaped :=
    Text.afterLead_eq_some.2 rfl
  unfold redirect
  rw [hlead]
  dsimp only
  rw [bindReference_types]
  by_cases hremoved : IsRemoved d (unescapeToken escaped)
  · obtain ⟨kept, hrenamed⟩ := isRemoved_iff.1 hremoved
    have hplain : unescapeToken kept = kept := unescapeToken_eq_self hrenamed.variant.agree
    rw [lookup_renamings.2 hrenamed]
    dsimp only
    rw [bindReference_types, hplain]
    refine follows_requireToken hrenamed.variant.agree ?_
    rw [← representative_eq hrenamed]
    exact follows_bindLocalType
  · have hself : Follows (ResolvedType.mapTokens d.representative)
        (bindLocalType d (unescapeToken escaped) context)
        (bindLocalType d.merged (d.representative (unescapeToken escaped)) context') :=
      follows_bindLocalType
    rw [representative_eq_self hremoved] at hself
    rw [lookup_renamings_eq_none hremoved]
    dsimp only
    rw [bindReference_types]
    exact follows_requireToken rfl hself

/-- A reference to anything else gives what it gave before. -/
theorem follows_bindReference_others {context context' : String}
    (hlead : Text.afterLead typesReference reference = none)
    (h : ∀ token, NamesElsewhere reference token → ¬ IsRemoved d token) :
    Follows (ResolvedType.mapTokens d.representative) (bindReference d reference context)
      (bindReference d.merged reference context') := by
  unfold bindReference
  rw [name_merged]
  dsimp only
  split
  · split
    · exact follows_ok rfl
    · exact follows_error
  · split
    · exact follows_ok rfl
    · split
      · exact follows_error
      · next origin fragment hsplit =>
        split
        · next _ _ escaped hescaped =>
          refine follows_requireToken rfl ?_
          split
          · next horigin =>
            have hreference := eq_of_splitFragment hsplit
            rw [String.isEmpty_iff.1 horigin, Text.afterLead_eq_some.1 hescaped] at hreference
            have hfound : reference = typesReference ++ escaped :=
              hreference.trans (by simp [← String.toList_inj, typesReference])
            rw [Text.afterLead_eq_some.2 hfound] at hlead
            cases hlead
          · next horigin =>
            have hnames : NamesElsewhere reference (unescapeToken escaped) :=
              ⟨origin, fragment, escaped, hsplit, Bool.eq_false_iff.2 horigin, hescaped, rfl⟩
            refine follows_ok ?_
            simp only [ResolvedType.mapTokens, representative_eq_self (h _ hnames)]
        · refine follows_requireToken rfl ?_
          rw [contains_resources_merged]
          split
          · exact follows_error
          · exact follows_ok rfl
        · exact follows_error

/-- References lead to what they led to before, or to what stands for it. -/
theorem leads_merged {exprs : List TypeExpr} (h : ∀ reference ∈ referencesIn exprs, ∀ token,
    NamesElsewhere reference token → ¬ IsRemoved d token) :
    Leads d d.merged (redirect d.renamings) d.representative exprs := by
  intro reference hreference context context'
  cases hlead : Text.afterLead typesReference reference with
  | some escaped =>
    rw [Text.afterLead_eq_some.1 hlead]
    exact follows_bindReference_types
  | none =>
    have hredirect : redirect d.renamings reference = reference := by rw [redirect, hlead]
    rw [hredirect]
    exact follows_bindReference_others hlead (h reference hreference)

end SchemaToJava.Schema
