import SchemaToJava.Proofs.FirstOccurrences
import SchemaToJava.Proofs.Queues

/-!
The whole life of a queue of classes, from when it is empty. The requests that it accepts are the
first ones offered for their object type and direction. In each direction they have been taken or
are pending in the order in which they were accepted, so none is lost and none comes twice; those
that are written are taken before those that are read.
-/
namespace SchemaToJava.Java.ClassQueue

open Package

inductive Call where
  | offer (r : ClassRequest)
  | offerAll (rs : List ClassRequest)
  | take

/-- A queue with all requests that it was offered and all that were taken from it, the earliest
first. -/
structure History where
  queue : ClassQueue := .empty
  offered : List ClassRequest := []
  taken : List ClassRequest := []

namespace History

/-- The history with one more call. A call that fails changes nothing. -/
def after (h : History) : Call → History
  | .offer r => { h with queue := h.queue.push r, offered := h.offered ++ [r] }
  | .offerAll rs => { h with queue := h.queue.pushAll rs, offered := h.offered ++ rs }
  | .take =>
    match h.queue.pop with
    | .ok (r, queue) => { h with queue, taken := h.taken ++ [r] }
    | .error _ => h

def ofCalls (calls : List Call) : History := calls.foldl after {}

/-- The requests that were accepted: the first one for each object type and direction. -/
def accepted (h : History) : List ClassRequest := firsts ClassRequest.key h.offered

end History

def ofDirection (d : Direction) (rs : List ClassRequest) : List ClassRequest :=
  rs.filter fun r => r.direction = d

def pendingOf (q : ClassQueue) : Direction → List ClassRequest
  | .input => q.inputs
  | .output => q.outputs

theorem isNew_eq_true {q : ClassQueue} {r : ClassRequest} : q.isNew r = true ↔ r.key ∉ q.seen := by
  simp [isNew]

theorem mem_seen_push {q : ClassQueue} {r : ClassRequest} {key : ObjectKey × Direction} :
    key ∈ (q.push r).seen ↔ key ∈ q.seen ∨ key = r.key := by
  unfold push
  split
  · split <;> simp [or_comm]
  · next hold =>
    have hseen : r.key ∈ q.seen := by simpa [isNew] using hold
    exact (or_iff_left_of_imp fun h => h ▸ hseen).symm

/-- A new request is put to the end of those of its direction. -/
theorem pendingOf_push_of_isNew {q : ClassQueue} {r : ClassRequest} (h : q.isNew r = true)
    (d : Direction) : (q.push r).pendingOf d = q.pendingOf d ++ ofDirection d [r] := by
  unfold push
  rw [if_pos h]
  cases hr : r.direction <;> cases d <;> simp [pendingOf, ofDirection, hr]

theorem push_of_not_isNew {q : ClassQueue} {r : ClassRequest} (h : q.isNew r ≠ true) :
    q.push r = q := if_neg h

/-- The request that is taken is the earliest of its direction, and one that is read is taken only
if none that is written is pending. -/
theorem pop_eq_ok {q q' : ClassQueue} {r : ClassRequest} (h : q.pop = .ok (r, q')) :
    ∃ d, q.pendingOf d = r :: q'.pendingOf d ∧ (∀ e, e ≠ d → q.pendingOf e = q'.pendingOf e) ∧
      (d = .output → q.inputs = []) ∧ q'.seen = q.seen := by
  unfold pop at h
  split at h
  · next hinputs =>
    cases h
    refine ⟨.input, hinputs, fun e he => ?_, fun hd => ?_, rfl⟩
    · cases e with
      | input => exact absurd rfl he
      | output => rfl
    · cases hd
  · next hinputs houtputs =>
    cases h
    refine ⟨.output, houtputs, fun e he => ?_, fun _ => hinputs, rfl⟩
    cases e with
    | input => rfl
    | output => exact absurd rfl he
  · cases h

theorem pop_eq_error {q : ClassQueue} {e : GenerationError} :
    q.pop = .error e ↔ q.pending = [] ∧ e = .queueEmpty := by
  unfold pop
  split
  · next hinputs => simp [pending, hinputs]
  · next hinputs houtputs => simp [pending, hinputs, houtputs]
  · next hinputs houtputs => simp [pending, hinputs, houtputs, eq_comm]

namespace History

/-- What every call keeps: the keys that were seen are those that were offered, and in each
direction the accepted requests are those taken, followed by those pending. -/
structure Consistent (h : History) : Prop where
  seen : ∀ key, key ∈ h.queue.seen ↔ key ∈ h.offered.map ClassRequest.key
  inOrder : ∀ d, ofDirection d h.accepted = ofDirection d h.taken ++ h.queue.pendingOf d

theorem consistent_empty : Consistent {} := by
  refine ⟨fun key => Iff.rfl, fun d => ?_⟩
  cases d <;> rfl

variable {h : History}

/-- Offering a request keeps the books in order. -/
theorem Consistent.offer (hc : h.Consistent) (r : ClassRequest) :
    (h.after (.offer r)).Consistent := by
  constructor
  · intro key
    change key ∈ (h.queue.push r).seen ↔ key ∈ (h.offered ++ [r]).map ClassRequest.key
    rw [mem_seen_push, hc.seen, List.map_append, List.mem_append, List.map_singleton,
      List.mem_singleton]
  · intro d
    change ofDirection d (firsts ClassRequest.key (h.offered ++ [r])) =
      ofDirection d h.taken ++ (h.queue.push r).pendingOf d
    rw [firsts_append_singleton]
    split
    · next hoffered =>
      rw [push_of_not_isNew fun hnew => isNew_eq_true.1 hnew ((hc.seen _).2 hoffered)]
      exact hc.inOrder d
    · next hoffered =>
      have hnew : h.queue.isNew r = true := isNew_eq_true.2 fun hseen =>
        hoffered ((hc.seen _).1 hseen)
      rw [pendingOf_push_of_isNew hnew, ← List.append_assoc, ← hc.inOrder d]
      exact List.filter_append ..

theorem after_offerAll (h : History) (r : ClassRequest) (rs : List ClassRequest) :
    h.after (.offerAll (r :: rs)) = (h.after (.offer r)).after (.offerAll rs) := by
  simp [after, pushAll]

theorem Consistent.offerAll (hc : h.Consistent) (rs : List ClassRequest) :
    (h.after (.offerAll rs)).Consistent := by
  induction rs generalizing h with
  | nil => simpa [after, pushAll] using hc
  | cons r rs ih =>
    rw [after_offerAll]
    exact ih (hc.offer r)

/-- Pending requests are kept with those of their direction. -/
theorem Consistent.direction_eq (hc : h.Consistent) {d : Direction} {r : ClassRequest}
    (hr : r ∈ h.queue.pendingOf d) : r.direction = d := by
  have hmem : r ∈ ofDirection d h.accepted := by
    rw [hc.inOrder d]
    exact List.mem_append_right _ hr
  simpa using (List.mem_filter.1 hmem).2

/-- Taking the next request keeps the books in order. -/
theorem Consistent.take (hc : h.Consistent) : (h.after .take).Consistent := by
  cases hpop : h.queue.pop with
  | error e => simpa [after, hpop] using hc
  | ok result =>
    obtain ⟨r, q⟩ := result
    obtain ⟨d, hd, hothers, -, hseen⟩ := pop_eq_ok hpop
    have hafter : h.after .take = { h with queue := q, taken := h.taken ++ [r] } := by
      simp [after, hpop]
    have hr : r.direction = d := hc.direction_eq (hd ▸ List.mem_cons_self)
    rw [hafter]
    refine ⟨fun key => hseen ▸ hc.seen key, fun e => ?_⟩
    change ofDirection e h.accepted = ofDirection e (h.taken ++ [r]) ++ q.pendingOf e
    have hsplit : ofDirection e (h.taken ++ [r]) = ofDirection e h.taken ++ ofDirection e [r] :=
      List.filter_append ..
    rw [hc.inOrder e, hsplit, List.append_assoc]
    by_cases he : e = d
    · subst he
      rw [hd]
      simp [ofDirection, hr]
    · rw [hothers e he]
      simp [ofDirection, hr, Ne.symm he]

theorem Consistent.after (hc : h.Consistent) (call : Call) : (h.after call).Consistent := by
  cases call with
  | offer r => exact hc.offer r
  | offerAll rs => exact hc.offerAll rs
  | take => exact hc.take

theorem consistent_ofCalls (calls : List Call) : (ofCalls calls).Consistent := by
  unfold ofCalls
  induction calls using List.reverseRecOn with
  | nil => exact consistent_empty
  | append_singleton calls call ih =>
    rw [List.foldl_append]
    exact ih.after call

/-- The books of a queue at any moment of its life. -/
structure KeepsAccount (h : History) : Prop where
  /-- A request would be accepted exactly if it is the first one offered for its key. -/
  isNew_iff : ∀ r, h.queue.isNew r = true ↔ r.key ∉ h.offered.map ClassRequest.key
  once : (h.taken.map ClassRequest.key).Nodup
  accepted_perm : h.accepted.Perm (h.taken ++ h.queue.pending)
  inOrder : ∀ d, ofDirection d h.accepted =
    ofDirection d h.taken ++ ofDirection d h.queue.pending
  /-- A request that is read is taken only when none that is written is pending. -/
  inputsFirst : ∀ r q, h.queue.pop = .ok (r, q) → r.direction = .output →
    ofDirection .input h.queue.pending = []
  fails_iff : h.queue.pop = .error .queueEmpty ↔ ∀ r ∈ h.accepted, r ∈ h.taken
  unchanged : ∀ e, h.queue.pop = .error e → e = .queueEmpty ∧ h.after .take = h

theorem ofDirection_append (d : Direction) (rs ss : List ClassRequest) :
    ofDirection d (rs ++ ss) = ofDirection d rs ++ ofDirection d ss := List.filter_append ..

/-- The requests of the two directions make up all requests. -/
theorem perm_ofDirection (rs : List ClassRequest) :
    (ofDirection .input rs ++ ofDirection .output rs).Perm rs := by
  have hother : ofDirection .output rs = rs.filter fun r => !decide (r.direction = .input) := by
    refine List.filter_congr fun r _ => ?_
    cases r.direction <;> rfl
  rw [hother]
  exact List.filter_append_perm _ rs

theorem Consistent.ofDirection_pending (hc : h.Consistent) (d : Direction) :
    ofDirection d h.queue.pending = h.queue.pendingOf d := by
  have hown (e : Direction) : ofDirection d (h.queue.pendingOf e) =
      if e = d then h.queue.pendingOf e else [] := by
    split
    · next he => exact List.filter_eq_self.2 fun r hr => by simp [hc.direction_eq hr, he]
    · next he => exact List.filter_eq_nil_iff.2 fun r hr => by simp [hc.direction_eq hr, he]
  change ofDirection d (h.queue.pendingOf .input ++ h.queue.pendingOf .output) = _
  rw [ofDirection_append, hown, hown]
  cases d <;> simp

theorem Consistent.accepted_perm (hc : h.Consistent) :
    h.accepted.Perm (h.taken ++ h.queue.pending) := by
  have hsame (d : Direction) :
      ofDirection d h.accepted = ofDirection d (h.taken ++ h.queue.pending) := by
    rw [ofDirection_append, hc.ofDirection_pending, hc.inOrder]
  refine (perm_ofDirection h.accepted).symm.trans ?_
  rw [hsame, hsame]
  exact perm_ofDirection _

theorem Consistent.nodup (hc : h.Consistent) :
    ((h.taken ++ h.queue.pending).map ClassRequest.key).Nodup :=
  (hc.accepted_perm.map _).nodup_iff.1 (nodup_map_firsts _ _)

/-- Nothing is pending exactly if all that was accepted has been taken. -/
theorem Consistent.pending_eq_nil_iff (hc : h.Consistent) :
    h.queue.pending = [] ↔ ∀ r ∈ h.accepted, r ∈ h.taken := by
  constructor
  · intro hpending r hr
    simpa [hpending] using hc.accepted_perm.mem_iff.1 hr
  · intro htaken
    refine List.eq_nil_iff_forall_not_mem.2 fun r hr => ?_
    have hdisjoint := (List.nodup_append.1 (List.Nodup.of_map _ hc.nodup)).2.2
    have haccepted : r ∈ h.accepted := hc.accepted_perm.mem_iff.2 (List.mem_append_right _ hr)
    exact hdisjoint r (htaken r haccepted) r hr rfl

/-- The queue keeps its books through all calls. -/
theorem keepsAccount_ofCalls (calls : List Call) : (ofCalls calls).KeepsAccount := by
  have hc := consistent_ofCalls calls
  generalize ofCalls calls = h at hc ⊢
  constructor
  · intro r
    rw [isNew_eq_true, hc.seen]
  · have hnodup := hc.nodup
    rw [List.map_append] at hnodup
    exact hnodup.of_append_left
  · exact hc.accepted_perm
  · intro d
    rw [hc.ofDirection_pending]
    exact hc.inOrder d
  · intro r q hpop hread
    obtain ⟨d, hd, -, hinputs, -⟩ := pop_eq_ok hpop
    rw [hc.ofDirection_pending]
    refine hinputs ?_
    rw [← hread]
    exact (hc.direction_eq (hd ▸ List.mem_cons_self)).symm
  · rw [pop_eq_error, and_iff_left rfl]
    exact hc.pending_eq_nil_iff
  · intro e hpop
    exact ⟨(pop_eq_error.1 hpop).2, by simp [after, hpop]⟩

end History

end SchemaToJava.Java.ClassQueue
