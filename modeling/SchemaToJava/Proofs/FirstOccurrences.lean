import Mathlib.Data.List.Induction
import Mathlib.Data.List.Nodup

/-!
The first occurrences in a list, where items with the same key count as one. They have each key of
the list once, and an item at the end joins them exactly if its key is new.
-/
namespace SchemaToJava

variable {α β : Type} [DecidableEq β]

/-- The items of a list whose key is that of no earlier item. -/
def firsts (key : α → β) (xs : List α) : List α :=
  xs.eraseDupsBy fun x y => key x == key y

theorem firsts_nil (key : α → β) : firsts key [] = [] := rfl

theorem firsts_cons (key : α → β) (x : α) (xs : List α) :
    firsts key (x :: xs) = x :: firsts key (xs.filter fun y => key y ≠ key x) := by
  unfold firsts
  rw [List.eraseDupsBy_cons]
  simp

/-- A last item counts unless its key came before. -/
theorem firsts_append_singleton (key : α → β) (xs : List α) (x : α) :
    firsts key (xs ++ [x]) =
      if key x ∈ xs.map key then firsts key xs else firsts key xs ++ [x] := by
  induction hlength : xs.length using Nat.strongRecOn generalizing xs with
  | ind n ih =>
    cases xs with
    | nil => rfl
    | cons y ys =>
      rw [List.cons_append, firsts_cons, firsts_cons, List.filter_append]
      by_cases hkey : key x = key y
      · have hdropped : [x].filter (fun z => key z ≠ key y) = [] := by simp [hkey]
        rw [hdropped, List.append_nil, if_pos (by simp [hkey])]
      · have hkept : [x].filter (fun z => key z ≠ key y) = [x] := by simp [hkey]
        have hmem : key x ∈ (ys.filter fun z => key z ≠ key y).map key ↔
            key x ∈ (y :: ys).map key := by
          simp only [List.mem_map, List.mem_filter, List.map_cons, List.mem_cons, hkey, false_or]
          refine exists_congr fun z => ⟨fun h => ⟨h.1.1, h.2⟩, fun h => ⟨⟨h.1, ?_⟩, h.2⟩⟩
          simpa [h.2] using hkey
        have hshorter : (ys.filter fun z => key z ≠ key y).length < n :=
          hlength ▸ Nat.lt_succ_of_le (List.length_filter_le _ ys)
        rw [hkept, ih _ hshorter _ rfl, if_congr hmem rfl rfl]
        split <;> rfl

theorem mem_map_firsts {key : α → β} {xs : List α} {b : β} :
    b ∈ (firsts key xs).map key ↔ b ∈ xs.map key := by
  induction xs using List.reverseRecOn with
  | nil => rw [firsts_nil]
  | append_singleton xs x ih =>
    rw [firsts_append_singleton, List.map_append, List.mem_append, ← ih]
    split
    · next hold =>
      have hlast : b ∈ [x].map key → b ∈ xs.map key := by
        intro hb
        obtain rfl : b = key x := List.mem_singleton.1 hb
        exact hold
      exact (or_iff_left_of_imp fun hb => ih.2 (hlast hb)).symm
    · rw [List.map_append, List.mem_append]

/-- The first occurrences have different keys. -/
theorem nodup_map_firsts (key : α → β) (xs : List α) : ((firsts key xs).map key).Nodup := by
  induction xs using List.reverseRecOn with
  | nil => exact List.nodup_nil
  | append_singleton xs x ih =>
    rw [firsts_append_singleton]
    split
    · exact ih
    · next hnew =>
      rw [← mem_map_firsts] at hnew
      rw [List.map_append, List.nodup_append]
      refine ⟨ih, List.nodup_singleton _, fun b hb c hc heq => ?_⟩
      obtain rfl : c = key x := List.mem_singleton.1 hc
      exact hnew (heq ▸ hb)

/-- Keys that tell the same items apart lead to the same first occurrences. -/
theorem firsts_congr {γ : Type} [DecidableEq γ] {key : α → β} {key' : α → γ} {xs : List α}
    (h : ∀ x ∈ xs, ∀ y ∈ xs, key x = key y ↔ key' x = key' y) : firsts key xs = firsts key' xs := by
  induction xs using List.reverseRecOn with
  | nil => rfl
  | append_singleton xs x ih =>
    have hold : key x ∈ xs.map key ↔ key' x ∈ xs.map key' := by
      rw [List.mem_map, List.mem_map]
      refine exists_congr fun y => and_congr_right fun hy => ?_
      exact h y (List.mem_append_left _ hy) x (by simp)
    have hrest := ih fun y hy z hz => h y (List.mem_append_left _ hy) z (List.mem_append_left _ hz)
    rw [firsts_append_singleton, firsts_append_singleton, hrest, if_congr hold rfl rfl]

/-- Whether first occurrences are taken before or after a choice by key makes no difference. -/
theorem firsts_filter (key : α → β) (p : β → Bool) (xs : List α) :
    firsts key (xs.filter fun x => p (key x)) = (firsts key xs).filter fun x => p (key x) := by
  induction xs using List.reverseRecOn with
  | nil => rfl
  | append_singleton xs x ih =>
    rw [List.filter_append, firsts_append_singleton]
    cases hp : p (key x) with
    | false =>
      rw [List.filter_singleton, hp, cond_false, List.append_nil, ih]
      split
      · rfl
      · rw [List.filter_append, List.filter_singleton, hp, cond_false, List.append_nil]
    | true =>
      have hold : key x ∈ (xs.filter fun x => p (key x)).map key ↔ key x ∈ xs.map key := by
        simp only [List.mem_map, List.mem_filter]
        refine exists_congr fun y => ⟨fun hy => ⟨hy.1.1, hy.2⟩, fun hy => ⟨⟨hy.1, ?_⟩, hy.2⟩⟩
        rw [hy.2, hp]
      rw [List.filter_singleton, hp, cond_true, firsts_append_singleton, if_congr hold rfl rfl, ih]
      split
      · rfl
      · rw [List.filter_append, List.filter_singleton, hp, cond_true]

/-- An item whose key has been met before can be left out. -/
theorem firsts_append_cons {key : α → β} {xs : List α} {x : α} (h : key x ∈ xs.map key)
    (ys : List α) : firsts key (xs ++ x :: ys) = firsts key (xs ++ ys) := by
  induction ys using List.reverseRecOn with
  | nil => rw [firsts_append_singleton, if_pos h, List.append_nil]
  | append_singleton ys y ih =>
    have hold : key y ∈ (xs ++ x :: ys).map key ↔ key y ∈ (xs ++ ys).map key := by
      simp only [List.map_append, List.map_cons, List.mem_append, List.mem_cons]
      refine ⟨?_, fun hy => hy.imp_right .inr⟩
      rintro (hy | hy | hy)
      · exact .inl hy
      · exact .inl (hy ▸ h)
      · exact .inr hy
    rw [← List.cons_append, ← List.append_assoc, ← List.append_assoc, firsts_append_singleton,
      firsts_append_singleton, ih, if_congr hold rfl rfl]

/-- Lists of the same items have the same first occurrences, up to their order. -/
theorem firsts_perm {xs ys : List β} (h : ∀ x, x ∈ xs ↔ x ∈ ys) :
    (firsts id xs).Perm (firsts id ys) := by
  have hnodup (zs : List β) : (firsts id zs).Nodup := by
    have hkeys := nodup_map_firsts id zs
    rwa [List.map_id] at hkeys
  have hmem {zs : List β} {z : β} : z ∈ firsts id zs ↔ z ∈ zs := by
    have hkeys : z ∈ (firsts id zs).map id ↔ z ∈ zs.map id := mem_map_firsts
    rwa [List.map_id, List.map_id] at hkeys
  refine (List.perm_ext_iff_of_nodup (hnodup xs) (hnodup ys)).2 fun x => ?_
  rw [hmem, hmem, h]

end SchemaToJava
