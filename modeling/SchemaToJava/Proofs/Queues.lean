import Mathlib.Data.List.Nodup
import Mathlib.Data.List.Perm.Basic
import SchemaToJava.Java.ClassQueue

/-!
The queue of classes to generate. What was ever asked for is what was accepted, once for each object
type and direction; what is pending is what was accepted and has not been taken out. Which pending
request is taken next makes no difference to either.
-/
namespace SchemaToJava.Java.ClassQueue

/-- The queue after it has accepted some requests. -/
structure Accepts (q : ClassQueue) (added : List ClassRequest) (q' : ClassQueue) : Prop where
  pending : q'.pending.Perm (q.pending ++ added)
  seen : q'.seen.Perm (q.seen ++ added.map ClassRequest.key)
  nodup : q.seen.Nodup → q'.seen.Nodup

theorem Accepts.refl (q : ClassQueue) : q.Accepts [] q :=
  ⟨by simp, by simp, id⟩

/-- Requests that are accepted one after another are accepted together. -/
theorem Accepts.trans {q q' q'' : ClassQueue} {added others : List ClassRequest}
    (h : q.Accepts added q') (h' : q'.Accepts others q'') : q.Accepts (added ++ others) q'' where
  pending := by
    rw [← List.append_assoc]
    exact h'.pending.trans (h.pending.append_right others)
  seen := by
    rw [List.map_append, ← List.append_assoc]
    exact h'.seen.trans (h.seen.append_right _)
  nodup := h'.nodup ∘ h.nodup

/-- A request is accepted unless its like was seen, and its like has been seen afterwards. -/
theorem accepts_push (q : ClassQueue) (r : ClassRequest) :
    (∃ added : List ClassRequest, added ⊆ [r] ∧ q.Accepts added (q.push r)) ∧
      r.key ∈ (q.push r).seen := by
  unfold push isNew
  by_cases hseen : r.key ∈ q.seen
  · have hold : (!q.seen.contains r.key) = false := by simp [hseen]
    rw [hold]
    exact ⟨⟨[], List.nil_subset _, .refl q⟩, hseen⟩
  · have hnew : (!q.seen.contains r.key) = true := by simp [hseen]
    rw [if_pos hnew]
    have hkeys : (r.key :: q.seen).Perm (q.seen ++ [r].map ClassRequest.key) :=
      (List.perm_append_singleton r.key q.seen).symm
    have hnodup : q.seen.Nodup → (r.key :: q.seen).Nodup := fun h => List.nodup_cons.2 ⟨hseen, h⟩
    split
    · refine ⟨⟨[r], List.Subset.refl _, ?_, hkeys, hnodup⟩, List.mem_cons_self⟩
      have hswap : ([r] ++ q.outputs).Perm (q.outputs ++ [r]) := List.perm_append_comm
      simpa [pending] using hswap.append_left q.inputs
    · refine ⟨⟨[r], List.Subset.refl _, ?_, hkeys, hnodup⟩, List.mem_cons_self⟩
      simp [pending]

/-- Of several requests, some are accepted, and the likes of all have been seen afterwards. -/
theorem accepts_pushAll (q : ClassQueue) (rs : List ClassRequest) :
    (∃ added : List ClassRequest, added ⊆ rs ∧ q.Accepts added (q.pushAll rs)) ∧
      ∀ r ∈ rs, r.key ∈ (q.pushAll rs).seen := by
  induction rs generalizing q with
  | nil =>
    refine ⟨⟨[], List.nil_subset _, .refl q⟩, fun r hr => ?_⟩
    cases hr
  | cons r rs ih =>
    obtain ⟨⟨first, hfirst, hpush⟩, hkey⟩ := q.accepts_push r
    obtain ⟨⟨others, hothers, hpushAll⟩, hkeys⟩ := ih (q.push r)
    refine ⟨⟨first ++ others, ?_, hpush.trans hpushAll⟩, ?_⟩
    · refine List.append_subset.2 ⟨?_, ?_⟩
      · exact List.Subset.trans hfirst (List.cons_subset_cons r (List.nil_subset rs))
      · exact List.Subset.trans hothers (List.subset_cons_self r rs)
    · intro s hs
      rcases List.mem_cons.1 hs with rfl | hs
      · exact hpushAll.seen.mem_iff.2 (List.mem_append_left _ hkey)
      · exact hkeys s hs

/-- A pending request is taken out; the others stay, in any order. -/
structure Takes (q : ClassQueue) (r : ClassRequest) (q' : ClassQueue) : Prop where
  seen : q'.seen = q.seen
  pending : q.pending.Perm (r :: q'.pending)

/-- The request that comes next was pending, and the others stay. -/
theorem takes_pop {q q' : ClassQueue} {r : ClassRequest} (h : q.pop = .ok (r, q')) :
    q.Takes r q' := by
  unfold pop at h
  split at h
  · next hinputs =>
    cases h
    exact ⟨rfl, by simp [pending, hinputs]⟩
  · next hinputs houtputs =>
    cases h
    exact ⟨rfl, by simp [pending, hinputs, houtputs]⟩
  · cases h

theorem isEmpty_iff {q : ClassQueue} : q.isEmpty = true ↔ q.pending = [] := by
  simp [isEmpty, pending]

/-- A request can be taken out of a queue that is not empty. -/
theorem exists_pop {q : ClassQueue} (h : q.isEmpty ≠ true) : ∃ r q', q.pop = .ok (r, q') := by
  unfold pop
  split
  · exact ⟨_, _, rfl⟩
  · exact ⟨_, _, rfl⟩
  · next hinputs houtputs =>
    exact absurd (isEmpty_iff.2 (by simp [pending, hinputs, houtputs])) h

end SchemaToJava.Java.ClassQueue
