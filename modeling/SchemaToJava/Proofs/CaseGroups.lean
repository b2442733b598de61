import SchemaToJava.Proofs.Dictionaries
import SchemaToJava.Schema.CaseVariants

/-!
Named types that differ by case alone. Each group of them has a smallest token, and every other type
of the group is compared with the type of that token: one finding tells of the outcome. The types to
go are those for which it is that the bodies agree.
-/
namespace SchemaToJava.Schema

open Std

def Diagnostic.token : Diagnostic → String
  | renamed token _ => token
  | skipped token _ => token

/-- No type that agrees with this one but for case has a smaller token. -/
structure IsSmallest (types : Dictionary String TypeEntry) (kept : String) : Prop where
  mem : kept ∈ types.keys
  least : ∀ other ∈ types.keys, Text.lowercase other = Text.lowercase kept →
    compare other kept ≠ .lt

/-- The token differs by case alone from the smallest one of its group. -/
structure IsVariant (types : Dictionary String TypeEntry) (token kept : String) : Prop where
  mem : token ∈ types.keys
  smallest : IsSmallest types kept
  agree : Text.lowercase token = Text.lowercase kept
  ne : token ≠ kept

variable {types : Dictionary String TypeEntry} {token kept other : String}

theorem IsSmallest.eq (h : IsSmallest types kept) (h' : IsSmallest types other)
    (hagree : Text.lowercase kept = Text.lowercase other) : kept = other := by
  have hge := h.least other h'.mem hagree.symm
  have hle := h'.least kept h.mem hagree
  cases hcompare : compare kept other with
  | lt => exact absurd hcompare hle
  | eq => exact LawfulEqOrd.eq_of_compare hcompare
  | gt => exact absurd (OrientedCmp.lt_of_gt hcompare) hge

theorem IsVariant.kept_eq (h : IsVariant types token kept) (h' : IsVariant types token other) :
    kept = other :=
  h.smallest.eq h'.smallest (h.agree.symm.trans h'.agree)

theorem IsVariant.not_isSmallest (h : IsVariant types token kept) : ¬ IsSmallest types token :=
  fun hsmallest => h.ne (hsmallest.eq h.smallest h.agree)

/-- The types whose tokens have the given form in lower case. -/
def caseGroup (types : Dictionary String TypeEntry) (key : String) : List (String × TypeEntry) :=
  types.entries.filter fun entry => compare key (Text.lowercase entry.1) == .eq

theorem mem_caseGroup {key : String} {entry : String × TypeEntry} :
    entry ∈ caseGroup types key ↔ entry ∈ types.entries ∧ Text.lowercase entry.1 = key := by
  rw [caseGroup, List.mem_filter, beq_iff_eq, Std.compare_eq_iff_eq, eq_comm (a := key)]

theorem mem_caseGroups {key : String} {group : List (String × TypeEntry)} :
    (key, group) ∈ (caseGroups types).entries ↔ group ≠ [] ∧ caseGroup types key = group := by
  let keyed := types.entries.map fun entry => (Text.lowercase entry.1, entry)
  have hgathered : (key, group) ∈ (keyed.foldl (fun (d : Dictionary String _) entry =>
      d.insert entry.1 ((d.get? entry.1).getD [] ++ [entry.2])) .empty).entries ↔ _ :=
    Dictionary.mem_gathered_iff
  rw [List.foldl_map, List.filter_map, List.map_map] at hgathered
  exact hgathered.trans (by simp [caseGroup, Function.comp_def])

/-- In a group the smallest token comes first. -/
theorem of_caseGroup_cons {key : String} {body : TypeEntry} {others : List (String × TypeEntry)}
    (h : caseGroup types key = (kept, body) :: others) :
    types.get? kept = some body ∧ IsSmallest types kept ∧
      ∀ token t, (token, t) ∈ others ↔ IsVariant types token kept ∧ types.get? token = some t := by
  have hmem (entry : String × TypeEntry) : entry = (kept, body) ∨ entry ∈ others ↔
      entry ∈ types.entries ∧ Text.lowercase entry.1 = key := by
    rw [← mem_caseGroup, h, List.mem_cons]
  have hascending : Ascending ((kept, body) :: others) :=
    h ▸ types.ascending.sublist List.filter_sublist
  obtain ⟨hfirst, -⟩ := List.pairwise_cons.1 hascending
  obtain ⟨hkept, hkey⟩ := (hmem (kept, body)).1 (.inl rfl)
  have hsmallest : IsSmallest types kept := by
    refine ⟨List.mem_map.2 ⟨_, hkept, rfl⟩, fun other hother hagree hlt => ?_⟩
    obtain ⟨u, hu⟩ := Dictionary.mem_keys_iff.1 hother
    have hentry := Dictionary.get?_eq_some_iff.1 hu
    rcases (hmem (other, u)).2 ⟨hentry, hagree.trans hkey⟩ with heq | hlater
    · obtain ⟨rfl, -⟩ := Prod.mk.inj heq
      rw [compare_self] at hlt
      cases hlt
    · have hgt : compare other kept = .gt := OrientedCmp.gt_of_lt (hfirst _ hlater)
      rw [hlt] at hgt
      cases hgt
  refine ⟨Dictionary.get?_eq_some_iff.2 hkept, hsmallest, fun token t => ?_⟩
  rw [Dictionary.get?_eq_some_iff]
  constructor
  · intro hlater
    obtain ⟨hentry, hagree⟩ := (hmem (token, t)).1 (.inr hlater)
    refine ⟨⟨List.mem_map.2 ⟨_, hentry, rfl⟩, hsmallest, hagree.trans hkey.symm, ?_⟩, hentry⟩
    rintro rfl
    have hlt := hfirst _ hlater
    rw [compare_self] at hlt
    cases hlt
  · rintro ⟨hvariant, hentry⟩
    rcases (hmem (token, t)).2 ⟨hentry, hvariant.agree.trans hkey⟩ with heq | hlater
    · exact absurd (Prod.mk.inj heq).1 hvariant.ne
    · exact hlater

/-- Every group has a smallest token. -/
theorem exists_isSmallest (h : token ∈ types.keys) :
    ∃ kept, IsSmallest types kept ∧ Text.lowercase token = Text.lowercase kept := by
  obtain ⟨t, ht⟩ := Dictionary.mem_keys_iff.1 h
  have hmem := mem_caseGroup.2 ⟨Dictionary.get?_eq_some_iff.1 ht, rfl⟩
  cases hgroup : caseGroup types (Text.lowercase token) with
  | nil => simp [hgroup] at hmem
  | cons first others =>
    obtain ⟨-, hsmallest, -⟩ := of_caseGroup_cons hgroup
    have hfirst : first ∈ caseGroup types (Text.lowercase token) := hgroup ▸ List.mem_cons_self
    exact ⟨first.1, hsmallest, (mem_caseGroup.1 hfirst).2.symm⟩

theorem exists_isVariant (h : token ∈ types.keys) (hnot : ¬ IsSmallest types token) :
    ∃ kept, IsVariant types token kept := by
  obtain ⟨kept, hsmallest, hagree⟩ := exists_isSmallest h
  exact ⟨kept, h, hsmallest, hagree, fun heq => hnot (heq ▸ hsmallest)⟩

variable {d : PackageDocument}

/-- What is found: each type of a group but the smallest is to be renamed or not, as its body agrees
with that of the smallest or not. -/
theorem mem_caseDiagnostics {x : Diagnostic} : x ∈ d.caseDiagnostics ↔
    ∃ token kept t body, IsVariant d.types token kept ∧ d.types.get? token = some t ∧
      d.types.get? kept = some body ∧
      x = if t.sameBody body then .renamed token kept else .skipped token kept := by
  unfold PackageDocument.caseDiagnostics Dictionary.values
  rw [List.mem_flatMap]
  constructor
  · rintro ⟨group, hgroup, hx⟩
    obtain ⟨⟨key, group⟩, hentry, rfl⟩ := List.mem_map.1 hgroup
    obtain ⟨hne, hgroup⟩ := mem_caseGroups.1 hentry
    obtain ⟨⟨kept, body⟩, others, rfl⟩ := List.exists_cons_of_ne_nil hne
    obtain ⟨hbody, -, hothers⟩ := of_caseGroup_cons hgroup
    obtain ⟨⟨token, t⟩, hlater, rfl⟩ := List.mem_map.1 hx
    obtain ⟨hvariant, ht⟩ := (hothers token t).1 hlater
    exact ⟨token, kept, t, body, hvariant, ht, hbody, rfl⟩
  · rintro ⟨token, kept, t, body, hvariant, ht, hbody, rfl⟩
    have hmem := mem_caseGroup.2
      ⟨Dictionary.get?_eq_some_iff.1 hbody, (rfl : Text.lowercase kept = Text.lowercase kept)⟩
    cases hgroup : caseGroup d.types (Text.lowercase kept) with
    | nil => simp [hgroup] at hmem
    | cons first others =>
      obtain ⟨hfirst, hsmallest, hothers⟩ := of_caseGroup_cons hgroup
      have hkey : first ∈ caseGroup d.types (Text.lowercase kept) := hgroup ▸ List.mem_cons_self
      obtain rfl := hsmallest.eq hvariant.smallest (mem_caseGroup.1 hkey).2
      obtain rfl : first.2 = body := Option.some.inj (hfirst.symm.trans hbody)
      refine ⟨first :: others, List.mem_map.2 ⟨_, mem_caseGroups.2 ⟨by simp, hgroup⟩, rfl⟩, ?_⟩
      exact List.mem_map.2 ⟨(token, t), (hothers token t).2 ⟨hvariant, ht⟩, rfl⟩

theorem token_groupDiagnostics (group : List (String × TypeEntry)) :
    (groupDiagnostics group).map Diagnostic.token = group.tail.map Prod.fst := by
  unfold groupDiagnostics
  split
  · rfl
  · rw [List.map_map, List.tail_cons]
    refine List.map_congr_left fun entry _ => ?_
    dsimp only [Function.comp_apply]
    split <;> rfl

/-- There is one finding for each type of a group but the smallest. -/
theorem nodup_caseDiagnostics : (d.caseDiagnostics.map Diagnostic.token).Nodup := by
  have hflat : d.caseDiagnostics.map Diagnostic.token =
      (caseGroups d.types).entries.flatMap fun entry => entry.2.tail.map Prod.fst := by
    unfold PackageDocument.caseDiagnostics Dictionary.values
    rw [List.map_flatMap, List.flatMap_map]
    exact List.flatMap_congr fun entry _ => token_groupDiagnostics entry.2
  have hmem {entry : String × List (String × TypeEntry)} {token : String}
      (hentry : entry ∈ (caseGroups d.types).entries) (htoken : token ∈ entry.2.tail.map Prod.fst) :
      Text.lowercase token = entry.1 := by
    obtain ⟨-, hgroup⟩ := mem_caseGroups.1 hentry
    obtain ⟨typed, htyped, rfl⟩ := List.mem_map.1 htoken
    exact (mem_caseGroup.1 (hgroup ▸ List.mem_of_mem_tail htyped)).2
  rw [hflat, List.nodup_flatMap]
  constructor
  · intro entry hentry
    obtain ⟨-, hgroup⟩ := mem_caseGroups.1 hentry
    refine d.types.nodup_keys.sublist (List.Sublist.map Prod.fst ?_)
    exact (List.tail_sublist _).trans (hgroup ▸ List.filter_sublist)
  · have hkeys := List.pairwise_map.1 (caseGroups d.types).nodup_keys
    refine hkeys.imp_of_mem fun {a b} ha hb hne token hta htb => hne ?_
    exact (hmem ha hta).symm.trans (hmem hb htb)

end SchemaToJava.Schema
