import SchemaToJava.Proofs.WholePackages

/-!
The loop that generates object classes until none is pending. Each turn takes one request out of the
queue and may put further ones in. What is ever asked for is an object type of the package together
with one of its three classes, and nothing is asked for twice; so the loop ends within three turns
for each object type, with success or with the fault of its last turn.
-/
namespace SchemaToJava.Java.Generation

open Package Outcome

def objectCount (p : Package) : Nat :=
  (p.types.keys.filter fun token => (p.object? token).isSome).length

/-- A turn of the loop: the next class is taken out of the queue and generated. -/
def turn (m : TypeMapper) (p : Progress) : Except GenerationError Progress := do
  let (request, queue) ← p.queue.pop
  { p with queue }.accept (← objectClass m request)

/-- The loop, with the number of its turns and its outcome: as long as something is pending, there
is another turn, and a turn that fails is the last one. -/
inductive Loops (m : TypeMapper) : Progress → Nat → Except GenerationError Progress → Prop
  | ended {p : Progress} : p.queue.isEmpty = true → Loops m p 0 (.ok p)
  | failed {p : Progress} {e : GenerationError} :
      p.queue.isEmpty ≠ true → turn m p = .error e → Loops m p 1 (.error e)
  | turned {p p' : Progress} {turns : Nat} {outcome : Except GenerationError Progress} :
      p.queue.isEmpty ≠ true → turn m p = .ok p' → Loops m p' turns outcome →
      Loops m p (turns + 1) outcome

/-- Whatever was asked for is a class of an object type, once; to read there is only the plain
shape. -/
structure AsksWithin (package : Package) (q : ClassQueue) : Prop where
  isObject : ∀ key ∈ q.seen, (package.object? key.1.token).isSome
  isPlain : ∀ key ∈ q.seen, key.2 = .output → key.1.inputShape = false
  nodup : q.seen.Nodup

variable {m : TypeMapper} {members : List Emitted} {done : List Rendered} {p p' : Progress}

/-- The pairs that can have a class, those of types other than objects left out. -/
theorem length_filter_candidates (p : Package) :
    ((candidates p).filter fun key => (p.object? key.1.token).isSome).length =
      3 * objectCount p := by
  unfold candidates objectCount Dictionary.keys
  generalize p.types.entries = entries
  induction entries with
  | nil => rfl
  | cons entry entries ih =>
    rw [List.flatMap_cons, List.filter_append, List.length_append, ih, List.map_cons]
    by_cases h : (p.object? entry.1).isSome
    · simp [h]
      omega
    · simp [h]

theorem objectCount_le (p : Package) : 3 * objectCount p ≤ classBound p := by
  rw [← length_filter_candidates, ← length_candidates]
  exact List.length_filter_le _ _

/-- A turn takes a request out of the queue and renders its class. -/
theorem turn_eq_ok : turn m p = .ok p' ↔ ∃ r queue e, p.queue.pop = .ok (r, queue) ∧
    objectClass m r = .ok e ∧ ({ p with queue } : Progress).accept e = .ok p' := by
  unfold turn
  simp only [bind_eq_ok, Prod.exists]
  constructor
  · rintro ⟨r, queue, hpop, e, he, haccept⟩
    exact ⟨r, queue, e, hpop, he, haccept⟩
  · rintro ⟨r, queue, e, hpop, he, haccept⟩
    exact ⟨r, queue, hpop, e, he, haccept⟩

theorem exists_step_of_turn (h : turn m p = .ok p') : ∃ c, Step m p c p' := by
  obtain ⟨r, queue, e, hpop, he, haccept⟩ := turn_eq_ok.1 h
  exact ⟨(r, e), queue, ClassQueue.takes_pop hpop, he, haccept⟩

theorem drain_succ (limit : Nat) (p : Progress) : drain m (limit + 1) p =
    if p.queue.isEmpty then .ok p else turn m p >>= drain m limit := by
  rw [drain, turn]
  simp only [bind_assoc]

/-- The bounded loop of the program has the outcome of the loop, unless its bound is too small. -/
theorem Loops.drain_eq {turns : Nat} {outcome : Except GenerationError Progress}
    (h : Loops m p turns outcome) {limit : Nat} (hlimit : turns ≤ limit) :
    drain m limit p = outcome := by
  induction h generalizing limit with
  | ended hempty =>
    unfold drain
    split <;> rw [if_pos hempty]
  | failed hpending hfail =>
    obtain ⟨limit, rfl⟩ := Nat.exists_eq_add_of_le' hlimit
    rw [drain_succ, if_neg hpending, hfail]
    rfl
  | turned hpending hturn _ ih =>
    obtain ⟨limit, rfl⟩ := Nat.exists_eq_succ_of_ne_zero (Nat.ne_zero_of_lt hlimit)
    rw [drain_succ, if_neg hpending, hturn]
    exact ih (Nat.le_of_succ_le_succ hlimit)

/-- Requests that the mapper assigns are for object types. -/
theorem asksWithin_of_serves {q : ClassQueue} (hnodup : q.seen.Nodup)
    (hserves : ∀ key ∈ q.seen, ∃ r, m.Serves r ∧ r.key = key) : AsksWithin m.package q := by
  refine ⟨fun key hkey => ?_, fun key hkey => ?_, hnodup⟩
  · obtain ⟨r, hr, rfl⟩ := hserves key hkey
    exact hr.isObject
  · obtain ⟨r, hr, rfl⟩ := hserves key hkey
    exact hr.isPlain

/-- Whatever the loop asks for is a class of an object type. -/
theorem Tracks.serves (h : Tracks m members done p) :
    ∀ key ∈ p.queue.seen, ∃ r, m.Serves r ∧ r.key = key := by
  intro key hkey
  rcases List.mem_append.1 (h.seen.mem_iff.1 hkey) with hkey | hkey
  · obtain ⟨c, hc, rfl⟩ := List.mem_map.1 hkey
    exact ⟨c.1, h.doneServes c hc, rfl⟩
  · obtain ⟨r, hr, rfl⟩ := List.mem_map.1 hkey
    exact ⟨r, h.pendingServes r hr, rfl⟩

theorem Tracks.asksWithin (h : Tracks m members done p) : AsksWithin m.package p.queue :=
  asksWithin_of_serves h.nodup h.serves

/-- What a class asks for keeps to the bounds, also when its file cannot be added. -/
theorem Tracks.asksWithin_pushAll (h : Tracks m members done p) {r : ClassRequest}
    {queue : ClassQueue} {e : Emitted} (htakes : p.queue.Takes r queue)
    (he : objectClass m r = .ok e) : AsksWithin m.package (queue.pushAll e.needed) := by
  obtain ⟨⟨added, hadded, haccepts⟩, -⟩ := queue.accepts_pushAll e.needed
  refine asksWithin_of_serves (haccepts.nodup (htakes.seen.symm ▸ h.nodup)) fun key hkey => ?_
  rcases List.mem_append.1 (haccepts.seen.mem_iff.1 hkey) with hkey | hkey
  · exact h.serves key (htakes.seen ▸ hkey)
  · obtain ⟨s, hs, rfl⟩ := List.mem_map.1 hkey
    exact ⟨s, ((requestFrame m).finishes_object he).serves s (hadded hs), rfl⟩

/-- There are at most three classes for an object type. -/
theorem Tracks.length_le (h : Tracks m members done p) :
    done.length + p.queue.pending.length ≤ 3 * objectCount m.package := by
  have hlength := h.seen.length_eq
  rw [List.length_append, List.length_map, List.length_map] at hlength
  rw [← hlength, ← length_filter_candidates]
  refine (List.subperm_of_subset h.nodup fun key hkey => ?_).length_le
  obtain ⟨r, hr, rfl⟩ := h.serves key hkey
  exact List.mem_filter.2 ⟨key_mem_candidates hr, hr.isObject⟩

/-- From where the loop stands, it ends before there are too many classes. -/
theorem Tracks.exists_loops {left : Nat} (h : Tracks m members done p)
    (hleft : 3 * objectCount m.package ≤ done.length + left) :
    ∃ turns outcome, Loops m p turns outcome ∧ turns ≤ left := by
  induction left generalizing done p with
  | zero =>
    have hpending : p.queue.pending = [] := by
      have hlength := h.length_le
      exact List.eq_nil_of_length_eq_zero (by omega)
    exact ⟨0, _, .ended (ClassQueue.isEmpty_iff.2 hpending), Nat.le_refl 0⟩
  | succ left ih =>
    by_cases hempty : p.queue.isEmpty = true
    · exact ⟨0, _, .ended hempty, Nat.zero_le _⟩
    · cases hturn : turn m p with
      | error e => exact ⟨1, _, .failed hempty hturn, Nat.succ_le_succ (Nat.zero_le _)⟩
      | ok p' =>
        obtain ⟨c, hstep⟩ := exists_step_of_turn hturn
        have hnext : 3 * objectCount m.package ≤ (done ++ [c]).length + left := by
          rw [List.length_append, List.length_singleton]
          omega
        obtain ⟨turns, outcome, hloops, hturns⟩ := ih (h.step hstep) hnext
        exact ⟨turns + 1, outcome, .turned hempty hturn hloops, Nat.succ_le_succ hturns⟩

/-- The loop over the object classes of a package ends soon, bounded by what is asked for in it. -/
structure EndsSoon (package : Package) (settings : Settings) (m : TypeMapper) (start : Progress) :
    Prop where
  /-- There are at most three turns for an object type, and generation has the outcome of the loop;
  a bound on the turns that is not below their number makes no difference. -/
  ends : ∃ turns outcome, Loops m start turns outcome ∧ turns ≤ 3 * objectCount package ∧
    (∀ limit, turns ≤ limit → drain m limit start = outcome) ∧
    generate package settings = outcome.map Progress.files
  asks : ∀ (taken : List Rendered) (p : Progress), Run m start taken p → AsksWithin package p.queue
  /-- What was asked for is what has been taken out and what is pending. -/
  asked : ∀ (taken : List Rendered) (p : Progress), Run m start taken p →
    p.queue.seen.Perm (taken.map Rendered.key ++ p.queue.pending.map ClassRequest.key)
  /-- Each turn asks for nothing else, also one that fails because the path of its file is taken. -/
  asksNext : ∀ (taken : List Rendered) (p : Progress), Run m start taken p →
    ∀ (r : ClassRequest) (queue : ClassQueue) (e : Emitted), p.queue.Takes r queue →
      objectClass m r = .ok e → AsksWithin package (queue.pushAll e.needed)

/-- Whatever the package, the loop over its object classes ends within three turns for each of its
object types. -/
theorem endsSoon_of_members {package : Package} {settings : Settings} {start : Progress}
    (hm : TypeMapper.make package settings = .ok m) (hstart : Generation.members m {} = .ok start) :
    EndsSoon package settings m start := by
  obtain ⟨members, hmembers, -⟩ := members_eq_ok.1 hstart
  have htracks := tracks_members hmembers hstart
  obtain rfl := package_of_make hm
  refine ⟨?_, fun taken p hrun => (htracks.run hrun).asksWithin,
    fun taken p hrun => (htracks.run hrun).seen, fun taken p hrun r queue e htakes he =>
      (htracks.run hrun).asksWithin_pushAll htakes he⟩
  have hleft : 3 * objectCount m.package ≤
      ([] : List Rendered).length + 3 * objectCount m.package := by simp
  obtain ⟨turns, outcome, hloops, hturns⟩ := htracks.exists_loops hleft
  refine ⟨turns, outcome, hloops, hturns, fun limit hlimit => hloops.drain_eq hlimit, ?_⟩
  have hbound : turns ≤ classBound m.package := Nat.le_trans hturns (objectCount_le m.package)
  unfold generate
  rw [hm]
  change Generation.members m {} >>= _ = _
  rw [hstart]
  change (drain m (classBound m.package) start >>= fun p => pure p.files) = _
  rw [hloops.drain_eq hbound]
  rfl

/-- Two object types that refer to each other, one of them to itself as well, and an enum. -/
theorem endsSoon_of_members_of_cycle :
    let types : Dictionary String TypeDefinition := .ofList
      [("p:m:A", .object ⟨"p:m:A", none, [.make "b" (.object ⟨"p:m:B", false⟩) true,
          .make "next" (.array (.object ⟨"p:m:A", false⟩)) false]⟩),
        ("p:m:B", .object ⟨"p:m:B", none, [.make "a" (.object ⟨"p:m:A", false⟩) false]⟩),
        ("p:m:E", .enum ⟨"p:m:E", none, .string, [⟨none, .string "x", none, none⟩]⟩)]
    let properties : List Property := [.make "a" (.object ⟨"p:m:A", false⟩) true]
    let package : Package :=
      { name := "p", types, resources := [{
          token := "p:m:R", description := none, properties, inputs := properties, state := none
          aliases := [], deprecation := none, isComponent := false, isProvider := false }] }
    ∃ m start, TypeMapper.make package {} = .ok m ∧ Generation.members m {} = .ok start ∧
      start.queue.pending.length = 2 ∧ objectCount package = 2 ∧ EndsSoon package {} m start := by
  intro types properties package
  have hpending : ((TypeMapper.make package {}).toOption.bind fun m =>
      (Generation.members m {}).toOption.map fun start => (m, start)).map
        (fun made => made.2.queue.pending.length) = some 2 := by
    decide +kernel
  obtain ⟨⟨m, start⟩, hmade, hlength⟩ := Option.map_eq_some_iff.1 hpending
  obtain ⟨m', hm, hmade⟩ := Option.bind_eq_some_iff.1 hmade
  obtain ⟨start', hstart, hpair⟩ := Option.map_eq_some_iff.1 hmade
  obtain ⟨rfl, rfl⟩ := Prod.mk.inj hpair
  have hm := toOption_eq_some.1 hm
  have hstart := toOption_eq_some.1 hstart
  have hcount : objectCount package = 2 := by decide +kernel
  exact ⟨m', start', hm, hstart, hlength, hcount, endsSoon_of_members hm hstart⟩

end SchemaToJava.Java.Generation
