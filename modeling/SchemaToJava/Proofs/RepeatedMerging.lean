import Mathlib.Logic.Function.Iterate
import SchemaToJava.Proofs.MergedDocuments

/-!
Merging again what has been merged. Each type is compared with the smallest of its group only, and
before the references are changed; so two types with one body can remain, and a body can come to
agree when references have been led to what remains. Merging as often as there are types always ends
in a document that it leaves alone.
-/
namespace SchemaToJava.Schema

open Std

/-- No two types that differ by case alone have the same body. -/
def Distinguished (types : Dictionary String TypeEntry) : Prop :=
  ∀ token other t u, types.get? token = some t → types.get? other = some u → token ≠ other →
    Text.lowercase token = Text.lowercase other → t.sameBody u = false

/-- Merging reports no type to go and leaves the document as it is. -/
structure IsMerged (d : PackageDocument) : Prop where
  unchanged : d.merged = d
  silent : ∀ token kept, .renamed token kept ∉ d.mergeCaseVariants.2

variable {d : PackageDocument} {token kept : String}

theorem renamings_eq_nil : d.renamings = [] ↔ ∀ token kept, ¬ IsRenamed d token kept := by
  rw [List.eq_nil_iff_forall_not_mem, Prod.forall]
  exact forall_congr' fun token => forall_congr' fun kept => not_congr mem_renamings

/-- Where nothing is to go, merging does nothing. -/
theorem merged_eq_self (h : d.renamings = []) : d.merged = d := by
  unfold PackageDocument.merged PackageDocument.mergeCaseVariants
  change Prod.fst (if d.renamings.isEmpty then _ else _) = _
  rw [if_pos (List.isEmpty_iff.2 h)]

/-- Merging that reports anything takes types out. -/
theorem length_merged_lt (h : d.renamings ≠ []) :
    d.merged.types.entries.length < d.types.entries.length := by
  obtain ⟨⟨token, kept⟩, hmem⟩ := List.exists_mem_of_ne_nil _ h
  have hrenamed := mem_renamings.1 hmem
  have hkeys : d.merged.types.keys.length < d.types.keys.length := by
    have hsub : d.merged.types.keys ⊆ d.types.keys.erase token := by
      intro other hother
      obtain ⟨hkey, hnot⟩ := mem_keys_merged.1 hother
      refine (List.mem_erase_of_ne ?_).2 hkey
      rintro rfl
      exact hnot kept hrenamed
    have hle := (List.subperm_of_subset d.merged.types.nodup_keys hsub).length_le
    have herase := List.length_erase_of_mem hrenamed.variant.mem
    have hpos := List.length_pos_of_mem hrenamed.variant.mem
    omega
  simpa [Dictionary.keys] using hkeys

theorem merged_eq_self_iff : d.merged = d ↔ d.renamings = [] := by
  refine ⟨fun h => ?_, merged_eq_self⟩
  by_contra hne
  have hlt := length_merged_lt hne
  rw [h] at hlt
  exact Nat.lt_irrefl _ hlt

theorem isMerged_iff : IsMerged d ↔ d.renamings = [] := by
  constructor
  · intro h
    exact merged_eq_self_iff.1 h.unchanged
  · intro h
    refine ⟨merged_eq_self h, fun token kept hmem => ?_⟩
    rw [mergeCaseVariants_snd, renamed_mem] at hmem
    exact renamings_eq_nil.1 h token kept hmem

/-- Repeated merging ends, since every pass but the last removes a type. -/
theorem exists_isMerged {count : Nat} (h : d.types.entries.length ≤ count) :
    ∃ passes ≤ count, IsMerged (PackageDocument.merged^[passes] d) := by
  induction count generalizing d with
  | zero =>
    have hnone : d.renamings = [] := by
      by_contra hne
      have hlt := length_merged_lt hne
      omega
    exact ⟨0, Nat.le_refl 0, isMerged_iff.2 hnone⟩
  | succ count ih =>
    by_cases hnone : d.renamings = []
    · exact ⟨0, Nat.zero_le _, isMerged_iff.2 hnone⟩
    · have hlt := length_merged_lt hnone
      obtain ⟨passes, hpasses, hmerged⟩ := ih (Nat.le_of_lt_succ (Nat.lt_of_lt_of_le hlt h))
      exact ⟨passes + 1, Nat.succ_le_succ hpasses, hmerged⟩

/-- The bodies of two types agree once their references are led to what remains. -/
def AgreesLater (d : PackageDocument) (token other : String) : Prop :=
  ∃ t u, d.types.get? token = some t ∧ d.types.get? other = some u ∧
    (t.mapReferences (redirect d.renamings)).sameBody
      (u.mapReferences (redirect d.renamings)) = true

theorem agreesLater_iff (htoken : token ∈ d.merged.types.keys)
    (hkept : kept ∈ d.merged.types.keys) : AgreesLater d token kept ↔
      ∃ t u, d.merged.types.get? token = some t ∧ d.merged.types.get? kept = some u ∧
        t.sameBody u = true := by
  have hnot := (mem_keys_merged.1 htoken).2
  have hnot' := (mem_keys_merged.1 hkept).2
  simp only [get?_merged_eq_some]
  constructor
  · rintro ⟨t, u, ht, hu, hsame⟩
    exact ⟨_, _, ⟨hnot, t, ht, rfl⟩, ⟨hnot', u, hu, rfl⟩, hsame⟩
  · rintro ⟨_, _, ⟨-, t, ht, rfl⟩, ⟨-, u, hu, rfl⟩, hsame⟩
    exact ⟨t, u, ht, hu, hsame⟩

/-- A second pass removes the types whose body did not agree with that of the smallest and does so
once references are led to what remains. -/
theorem isRenamed_merged : IsRenamed d.merged token kept ↔
    IsVariant d.types token kept ∧ ¬ IsRenamed d token kept ∧ AgreesLater d token kept := by
  constructor
  · rintro ⟨hvariant, hsame⟩
    obtain ⟨h, hnot⟩ := isVariant_merged.1 hvariant
    obtain ⟨t, ht⟩ := Dictionary.mem_keys_iff.1 hvariant.mem
    obtain ⟨u, hu⟩ := Dictionary.mem_keys_iff.1 hvariant.smallest.mem
    exact ⟨h, hnot, (agreesLater_iff hvariant.mem hvariant.smallest.mem).2
      ⟨t, u, ht, hu, hsame t u ht hu⟩⟩
  · rintro ⟨h, hnot, hagrees⟩
    have hvariant := isVariant_merged.2 ⟨h, hnot⟩
    refine ⟨hvariant, fun t u ht hu => ?_⟩
    obtain ⟨t', u', ht', hu', hsame⟩ :=
      (agreesLater_iff hvariant.mem hvariant.smallest.mem).1 hagrees
    rw [ht] at ht'
    rw [hu] at hu'
    cases ht'
    cases hu'
    exact hsame

/-- What merging brings about, and when once is enough. -/
structure Settles (d : PackageDocument) : Prop where
  /-- As the document has them, the body of a type that remains is not the smallest one's. -/
  differs : ∀ token kept, IsVariant d.merged.types token kept →
    ∀ t u, d.types.get? token = some t → d.types.get? kept = some u → t.sameBody u = false
  /-- The types that remain have distinct bodies within their groups exactly if those of the
  document that are not removed do, their references led to what remains. -/
  distinguished_iff : Distinguished d.merged.types ↔ ∀ token other, token ∈ d.merged.types.keys →
    other ∈ d.merged.types.keys → token ≠ other → Text.lowercase token = Text.lowercase other →
      ¬ AgreesLater d token other
  /-- A second pass removes exactly those types whose body came to agree with the smallest one's. -/
  renamed_iff : ∀ token kept, .renamed token kept ∈ d.merged.mergeCaseVariants.2 ↔
    IsVariant d.types token kept ∧ .skipped token kept ∈ d.mergeCaseVariants.2 ∧
      AgreesLater d token kept
  /-- It changes the document exactly if it removes a type. -/
  unchanged_iff : d.merged.merged = d.merged ↔
    ∀ token kept, .renamed token kept ∉ d.merged.mergeCaseVariants.2
  /-- As many passes as there are types are enough for one more to do nothing. -/
  ends : ∃ passes ≤ d.types.entries.length, IsMerged (PackageDocument.merged^[passes] d)

/-- Merging settles a document in one pass under the stated conditions, and in as many passes as it
has types whatever the document. -/
theorem settles_mergeCaseVariants (d : PackageDocument) : Settles d := by
  refine ⟨fun token kept hvariant t u ht hu => ?_, ?_, fun token kept => ?_, ?_,
    exists_isMerged (Nat.le_refl _)⟩
  · obtain ⟨h, hnot⟩ := isVariant_merged.1 hvariant
    rw [Bool.eq_false_iff]
    refine fun hsame => hnot ⟨h, fun t' u' ht' hu' => ?_⟩
    rw [ht] at ht'
    rw [hu] at hu'
    cases ht'
    cases hu'
    exact hsame
  · constructor
    · intro h token other htoken hother hne hcase hagrees
      obtain ⟨t, u, ht, hu, hsame⟩ := (agreesLater_iff htoken hother).1 hagrees
      rw [h token other t u ht hu hne hcase] at hsame
      cases hsame
    · intro h token other t u ht hu hne hcase
      have htoken := Dictionary.mem_keys_iff.2 ⟨t, ht⟩
      have hother := Dictionary.mem_keys_iff.2 ⟨u, hu⟩
      rw [Bool.eq_false_iff]
      exact fun hsame => h token other htoken hother hne hcase
        ((agreesLater_iff htoken hother).2 ⟨t, u, ht, hu, hsame⟩)
  · rw [mergeCaseVariants_snd, mergeCaseVariants_snd, renamed_mem, isRenamed_merged, skipped_mem]
    tauto
  · rw [merged_eq_self_iff, renamings_eq_nil, mergeCaseVariants_snd]
    exact forall_congr' fun token => forall_congr' fun kept => not_congr renamed_mem.symm

/-- Three types, two of which have one body that the smallest does not have; and two pairs of types,
of which the first differ only in that each refers to its own of the second. -/
theorem not_settled_of_three_or_chain :
    let holding (type : TypeExpr) : TypeEntry :=
      { object := { properties := .ofList [("x", { type })] } }
    let three : PackageDocument := {
      name := "p"
      types := .ofList [("p:m:FOO", holding { typeName := "string" }),
        ("p:m:Foo", holding { typeName := "integer" }),
        ("p:m:foo", holding { typeName := "integer" })] }
    let chain : PackageDocument := {
      name := "p"
      types := .ofList [("p:m:A", holding { reference := "#/types/p:m:B" }), ("p:m:B", {}),
        ("p:m:a", holding { reference := "#/types/p:m:b" }), ("p:m:b", {})] }
    ¬ Distinguished three.merged.types ∧ ¬ Distinguished chain.merged.types ∧
      ¬ IsMerged chain.merged := by
  intro holding three chain
  have htwins {types : Dictionary String TypeEntry} {token other : String}
      (h : ((types.get? token).any fun t => (types.get? other).any t.sameBody) = true)
      (hne : token ≠ other) (hcase : Text.lowercase token = Text.lowercase other) :
      ¬ Distinguished types := by
    intro hdistinguished
    simp only [Option.any_eq_true] at h
    obtain ⟨t, ht, u, hu, hsame⟩ := h
    rw [hdistinguished token other t u ht hu hne hcase] at hsame
    cases hsame
  refine ⟨?_, ?_, fun hmerged => ?_⟩
  · have hthree : ((three.merged.types.get? "p:m:Foo").any fun t =>
        (three.merged.types.get? "p:m:foo").any t.sameBody) = true := by decide +kernel
    exact htwins hthree (by decide) (by decide +kernel)
  · have hchain : ((chain.merged.types.get? "p:m:a").any fun t =>
        (chain.merged.types.get? "p:m:A").any t.sameBody) = true := by decide +kernel
    exact htwins hchain (by decide) (by decide +kernel)
  · have hrenamed : .renamed "p:m:a" "p:m:A" ∈ chain.merged.mergeCaseVariants.2 := by
      decide +kernel
    exact hmerged.silent _ _ hrenamed

end SchemaToJava.Schema
