import SchemaToJava.Proofs.CaseGroups

/-!
The document that is left when types that differ by case alone have been merged. A type goes exactly
if its body agrees with that of the smallest type of its group, which itself always stays, and every
reference is led to what remains.
-/
namespace SchemaToJava.Schema

open Std

mutual

theorem TypeExpr.mapReferences_id : (e : TypeExpr) → e.mapReferences id = e
  | ⟨typeName, reference, items, additional, oneOf, plain⟩ => by
    unfold TypeExpr.mapReferences
    rw [optionMapReferences_id items, optionMapReferences_id additional,
      alternativesMapReferences_id oneOf, Option.map_id, id]

theorem optionMapReferences_id : (e : Option TypeExpr) → optionMapReferences id e = e
  | none => rfl
  | some e => by rw [optionMapReferences, e.mapReferences_id]

theorem alternativesMapReferences_id :
    (es : Option (List TypeExpr)) → alternativesMapReferences id es = es
  | none => rfl
  | some es => by rw [alternativesMapReferences, listMapReferences_id es]

theorem listMapReferences_id : (es : List TypeExpr) → listMapReferences id es = es
  | [] => rfl
  | e :: es => by rw [listMapReferences, e.mapReferences_id, listMapReferences_id es]

end

theorem Properties.mapReferences_id (ps : Properties) : ps.mapReferences id = ps :=
  Dictionary.mapValues_eq_self fun p => by rw [p.type.mapReferences_id]

theorem ObjectEntry.mapReferences_id (o : ObjectEntry) : o.mapReferences id = o := by
  rw [ObjectEntry.mapReferences, Properties.mapReferences_id]

theorem optionMap_id_of {α : Type} {f : α → α} (h : ∀ x, f x = x) (o : Option α) : o.map f = o := by
  rw [funext h]
  exact Option.map_id'

theorem ResourceEntry.mapReferences_id (r : ResourceEntry) : r.mapReferences id = r := by
  rw [ResourceEntry.mapReferences, ObjectEntry.mapReferences_id, Properties.mapReferences_id,
    optionMap_id_of ObjectEntry.mapReferences_id]

theorem FunctionEntry.mapReferences_id (f : FunctionEntry) : f.mapReferences id = f := by
  rw [FunctionEntry.mapReferences, optionMap_id_of ObjectEntry.mapReferences_id,
    optionMap_id_of ObjectEntry.mapReferences_id]

theorem TypeEntry.mapReferences_id (t : TypeEntry) : t.mapReferences id = t := by
  rw [TypeEntry.mapReferences, ObjectEntry.mapReferences_id]

theorem PackageDocument.mapReferences_id (d : PackageDocument) : d.mapReferences id = d := by
  rw [PackageDocument.mapReferences, Properties.mapReferences_id,
    Dictionary.mapValues_eq_self TypeEntry.mapReferences_id,
    optionMap_id_of ResourceEntry.mapReferences_id,
    Dictionary.mapValues_eq_self ResourceEntry.mapReferences_id,
    Dictionary.mapValues_eq_self FunctionEntry.mapReferences_id]

/-- The types that are to go, with the tokens of those that replace them. -/
def PackageDocument.renamings (d : PackageDocument) : List (String × String) :=
  d.caseDiagnostics.filterMap Diagnostic.renaming?

def PackageDocument.merged (d : PackageDocument) : PackageDocument := d.mergeCaseVariants.1

/-- The type goes, and `kept` stands for it. -/
structure IsRenamed (d : PackageDocument) (token kept : String) : Prop where
  variant : IsVariant d.types token kept
  sameBody : ∀ t body, d.types.get? token = some t → d.types.get? kept = some body →
    t.sameBody body = true

variable {d : PackageDocument} {token kept other : String}

theorem mergeCaseVariants_snd (d : PackageDocument) :
    d.mergeCaseVariants.2 = d.caseDiagnostics := by
  unfold PackageDocument.mergeCaseVariants
  dsimp only
  split <;> rfl

/-- A type to go is left out and references to it are changed, whether there is any or not. -/
theorem merged_eq (d : PackageDocument) : d.merged =
    ({ d with types := d.types.filter fun token _ => (d.renamings.lookup token).isNone } :
      PackageDocument).mapReferences (redirect d.renamings) := by
  unfold PackageDocument.merged PackageDocument.mergeCaseVariants
  change Prod.fst (if d.renamings.isEmpty then _ else _) = _
  split
  · next hempty =>
    have hnone : d.renamings = [] := List.isEmpty_iff.1 hempty
    have hid : redirect [] = id := by
      funext reference
      unfold redirect
      split <;> rfl
    have hall : d.types.filter (fun token _ =>
        (List.lookup token ([] : List (String × String))).isNone) =
        d.types := by
      apply Dictionary.ext_entries
      simp [Dictionary.filter]
    rw [hnone, hid, hall, PackageDocument.mapReferences_id]
  · rfl

/-- A type goes exactly if it has the body of a smaller variant, and that variant stands for it. -/
theorem mem_renamings : (token, kept) ∈ d.renamings ↔ IsRenamed d token kept := by
  unfold PackageDocument.renamings
  simp only [List.mem_filterMap, mem_caseDiagnostics]
  constructor
  · rintro ⟨x, ⟨token', kept', t, body, hvariant, ht, hbody, rfl⟩, hx⟩
    split at hx
    · next hsame =>
      obtain ⟨rfl, rfl⟩ := Prod.mk.inj (Option.some.inj hx)
      refine ⟨hvariant, fun t' body' ht' hbody' => ?_⟩
      obtain rfl := Option.some.inj (ht.symm.trans ht')
      obtain rfl := Option.some.inj (hbody.symm.trans hbody')
      exact hsame
    · cases hx
  · rintro ⟨hvariant, hsame⟩
    obtain ⟨t, ht⟩ := Dictionary.mem_keys_iff.1 hvariant.mem
    obtain ⟨body, hbody⟩ := Dictionary.mem_keys_iff.1 hvariant.smallest.mem
    refine ⟨_, ⟨token, kept, t, body, hvariant, ht, hbody, rfl⟩, ?_⟩
    rw [if_pos (hsame t body ht hbody)]
    rfl

theorem lookup_renamings : d.renamings.lookup token = some kept ↔ IsRenamed d token kept := by
  rw [← mem_renamings]
  constructor
  · intro h
    obtain ⟨l, l', hsplit, -⟩ := List.lookup_eq_some_iff.1 h
    rw [hsplit]
    simp
  · intro h
    cases hlookup : d.renamings.lookup token with
    | none => simpa using List.lookup_eq_none_iff.1 hlookup _ h
    | some found =>
      obtain ⟨l, l', hsplit, -⟩ := List.lookup_eq_some_iff.1 hlookup
      have hfound : (token, found) ∈ d.renamings := by simp [hsplit]
      have hvariant := (mem_renamings.1 hfound).variant
      rw [hvariant.kept_eq (mem_renamings.1 h).variant]

theorem lookup_renamings_isNone :
    (d.renamings.lookup token).isNone = true ↔ ∀ kept, ¬ IsRenamed d token kept := by
  rw [Option.isNone_iff_eq_none, Option.eq_none_iff_forall_ne_some]
  exact forall_congr' fun kept => not_congr lookup_renamings

theorem mem_keys_merged :
    token ∈ d.merged.types.keys ↔ token ∈ d.types.keys ∧ ∀ kept, ¬ IsRenamed d token kept := by
  rw [merged_eq]
  change token ∈ (Dictionary.mapValues _ _).keys ↔ _
  rw [Dictionary.keys_mapValues, Dictionary.mem_keys_filter, lookup_renamings_isNone]

/-- The types that remain are those of the document with their references changed. -/
theorem get?_merged_eq_some {t : TypeEntry} : d.merged.types.get? token = some t ↔
    (∀ kept, ¬ IsRenamed d token kept) ∧
      ∃ s, d.types.get? token = some s ∧ s.mapReferences (redirect d.renamings) = t := by
  rw [merged_eq]
  change (Dictionary.mapValues _ _).get? token = some t ↔ _
  rw [Dictionary.get?_mapValues, Dictionary.get?_filter]
  simp only [Option.map_eq_some_iff, Option.filter_eq_some_iff, lookup_renamings_isNone]
  constructor
  · rintro ⟨s, ⟨hs, hnot⟩, rfl⟩
    exact ⟨hnot, s, hs, rfl⟩
  · rintro ⟨hnot, s, hs, rfl⟩
    exact ⟨s, ⟨hs, hnot⟩, rfl⟩

theorem IsSmallest.not_isRenamed (h : IsSmallest d.types token) :
    ∀ kept, ¬ IsRenamed d token kept :=
  fun _ hrenamed => hrenamed.variant.not_isSmallest h

/-- The smallest type of a group stays the smallest, and no other one becomes it. -/
theorem isSmallest_merged : IsSmallest d.merged.types kept ↔ IsSmallest d.types kept := by
  have hstays {token : String} (h : IsSmallest d.types token) : IsSmallest d.merged.types token :=
    ⟨mem_keys_merged.2 ⟨h.mem, h.not_isRenamed⟩,
      fun other hother => h.least other (mem_keys_merged.1 hother).1⟩
  constructor
  · intro h
    obtain ⟨other, hother, hagree⟩ := exists_isSmallest (mem_keys_merged.1 h.mem).1
    rwa [h.eq (hstays hother) hagree]
  · exact hstays

theorem isVariant_merged : IsVariant d.merged.types token kept ↔
    IsVariant d.types token kept ∧ ¬ IsRenamed d token kept := by
  constructor
  · intro h
    obtain ⟨hmem, hnot⟩ := mem_keys_merged.1 h.mem
    exact ⟨⟨hmem, isSmallest_merged.1 h.smallest, h.agree, h.ne⟩, hnot kept⟩
  · rintro ⟨h, hnot⟩
    refine ⟨mem_keys_merged.2 ⟨h.mem, fun other hother => ?_⟩, isSmallest_merged.2 h.smallest,
      h.agree, h.ne⟩
    exact hnot (h.kept_eq hother.variant ▸ hother)

/-- What is told of a type is that it goes, or that it stays though it is not the smallest. -/
theorem renamed_mem : .renamed token kept ∈ d.caseDiagnostics ↔ IsRenamed d token kept := by
  rw [← mem_renamings, PackageDocument.renamings, List.mem_filterMap]
  constructor
  · intro h
    exact ⟨_, h, rfl⟩
  · rintro ⟨x, hx, heq⟩
    cases x with
    | renamed token' kept' =>
      obtain ⟨rfl, rfl⟩ := Prod.mk.inj (Option.some.inj heq)
      exact hx
    | skipped token' kept' => cases heq

/-- A variant that is not renamed is reported as skipped. -/
theorem skipped_mem : .skipped token kept ∈ d.caseDiagnostics ↔
    IsVariant d.types token kept ∧ ¬ IsRenamed d token kept := by
  rw [mem_caseDiagnostics]
  constructor
  · rintro ⟨token', kept', t, body, hvariant, ht, hbody, heq⟩
    split at heq
    · cases heq
    · next hdiffer =>
      obtain ⟨rfl, rfl⟩ := Diagnostic.skipped.inj heq
      exact ⟨hvariant, fun hrenamed => hdiffer (hrenamed.sameBody t body ht hbody)⟩
  · rintro ⟨hvariant, hnot⟩
    obtain ⟨t, ht⟩ := Dictionary.mem_keys_iff.1 hvariant.mem
    obtain ⟨body, hbody⟩ := Dictionary.mem_keys_iff.1 hvariant.smallest.mem
    refine ⟨token, kept, t, body, hvariant, ht, hbody, ?_⟩
    rw [if_neg]
    intro hsame
    refine hnot ⟨hvariant, fun t' body' ht' hbody' => ?_⟩
    obtain rfl := Option.some.inj (ht.symm.trans ht')
    obtain rfl := Option.some.inj (hbody.symm.trans hbody')
    exact hsame

end SchemaToJava.Schema
