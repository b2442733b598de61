import SchemaToJava.Proofs.FileSets
import SchemaToJava.Proofs.Queues
import SchemaToJava.Proofs.Requests

/-!
The object classes of a package. They are the least set that holds what the members of the package
need and what the classes of the set need themselves. A run of generation keeps track of it: what
was asked for is what is done or still pending, each once, so that a run that ends has gone through
the whole set, whichever pending class it took next. There are at most three classes for an object
type, so the bounded run that the program makes does end.
-/
namespace SchemaToJava.Java.Generation

open Package Outcome

variable {m : TypeMapper}

abbrev Rendered := ClassRequest × Emitted

abbrev Rendered.key (c : Rendered) : ObjectKey × Direction := c.1.key

/-- The object types and directions that are needed: by a member of the package, or by the class of
a pair that is needed. -/
inductive Reached (m : TypeMapper) (members : List Emitted) : ObjectKey × Direction → Prop
  | ofMember {e : Emitted} {r : ClassRequest} :
      e ∈ members → r ∈ e.needed → Reached m members r.key
  | ofClass {r s : ClassRequest} {e : Emitted} :
      Reached m members r.key → m.objectClass r.source r.direction = .ok r →
      objectClass m r = .ok e → s ∈ e.needed → Reached m members s.key

/-- The classes are those of the pairs that are needed, one for each pair. -/
structure Closure (m : TypeMapper) (members : List Emitted) (classes : List Rendered) : Prop where
  reached_iff : ∀ key, Reached m members key ↔ key ∈ classes.map Rendered.key
  nodup : (classes.map Rendered.key).Nodup
  serves : ∀ c ∈ classes, m.Serves c.1
  rendered : ∀ c ∈ classes, objectClass m c.1 = .ok c.2

/-- All files of the package: those of its members, those bundled with them, and those of its object
classes. -/
def allFiles (m : TypeMapper) (members : List Emitted) (classes : List Rendered) :
    List SourceFile :=
  members.map Emitted.file ++ Utilities.bundled m ++ classes.map (·.2.file)

section Closure

variable {members : List Emitted} {classes others : List Rendered}

theorem Closure.exists_mem (h : Closure m members classes) {r : ClassRequest}
    (hr : m.Serves r) (hreached : Reached m members r.key) :
    ∃ e : Emitted, (r, e) ∈ classes := by
  obtain ⟨c, hc, hkey⟩ := List.mem_map.1 ((h.reached_iff r.key).1 hreached)
  obtain rfl := (h.serves c hc).eq_of_key hr hkey
  exact ⟨c.2, hc⟩

/-- A rendered class of a needed pair is among the classes. -/
theorem Closure.mem (h : Closure m members classes) {c : Rendered} (hserves : m.Serves c.1)
    (hrendered : objectClass m c.1 = .ok c.2) (hreached : Reached m members c.key) :
    c ∈ classes := by
  obtain ⟨e, he⟩ := h.exists_mem hserves hreached
  have heq := h.rendered _ he
  rw [hrendered] at heq
  obtain rfl := Except.ok.inj heq
  exact he

/-- Whichever order is taken, the same classes are generated. -/
theorem Closure.perm (h : Closure m members classes) (h' : Closure m members others) :
    classes.Perm others := by
  refine (List.perm_ext_iff_of_nodup (h.nodup.of_map _) (h'.nodup.of_map _)).2 fun c => ?_
  constructor
  · intro hc
    have hreached := (h.reached_iff c.key).2 (List.mem_map_of_mem hc)
    exact h'.mem (h.serves c hc) (h.rendered c hc) hreached
  · intro hc
    have hreached := (h'.reached_iff c.key).2 (List.mem_map_of_mem hc)
    exact h.mem (h'.serves c hc) (h'.rendered c hc) hreached

/-- The pairs that can have a class. -/
def candidates (p : Package) : List (ObjectKey × Direction) :=
  p.types.entries.flatMap fun entry =>
    [(⟨entry.1, false⟩, .output), (⟨entry.1, false⟩, .input), (⟨entry.1, true⟩, .input)]

theorem length_candidates (p : Package) : (candidates p).length = classBound p := by
  unfold candidates classBound
  rw [List.length_flatMap]
  simp [Nat.mul_comm]

/-- Every request that the mapper serves is among the candidates, so there are finitely many. -/
theorem key_mem_candidates {r : ClassRequest} (h : m.Serves r) : r.key ∈ candidates m.package := by
  obtain ⟨entry, hentry, htoken⟩ : ∃ entry ∈ m.package.types.entries, entry.1 = r.source.token := by
    have hobject := h.isObject
    unfold object? at hobject
    split at hobject
    · next o ho => exact ⟨_, Dictionary.get?_eq_some_iff.1 ho, rfl⟩
    · cases hobject
  refine List.mem_flatMap.2 ⟨entry, hentry, ?_⟩
  have hplain := h.isPlain
  obtain ⟨package, className, ⟨token, inputShape⟩, direction⟩ := r
  obtain rfl : entry.1 = token := htoken
  cases direction with
  | input => cases inputShape <;> simp [ClassRequest.key]
  | output =>
    obtain rfl : inputShape = false := hplain rfl
    simp [ClassRequest.key]

theorem Closure.length_le (h : Closure m members classes) :
    classes.length ≤ classBound m.package := by
  rw [← length_candidates, ← List.length_map (f := Rendered.key)]
  refine (List.subperm_of_subset h.nodup fun key hkey => ?_).length_le
  obtain ⟨c, hc, rfl⟩ := List.mem_map.1 hkey
  exact key_mem_candidates (h.serves c hc)

end Closure

/-- Where a run of generation stands when it has generated some object classes. -/
structure Tracks (m : TypeMapper) (members : List Emitted) (done : List Rendered) (p : Progress) :
    Prop where
  files : p.files.Holds (allFiles m members done)
  seen : p.queue.seen.Perm (done.map Rendered.key ++ p.queue.pending.map ClassRequest.key)
  nodup : p.queue.seen.Nodup
  doneServes : ∀ c ∈ done, m.Serves c.1
  pendingServes : ∀ r ∈ p.queue.pending, m.Serves r
  rendered : ∀ c ∈ done, objectClass m c.1 = .ok c.2
  reached : ∀ key ∈ p.queue.seen, Reached m members key
  membersSeen : ∀ e ∈ members, ∀ r ∈ e.needed, r.key ∈ p.queue.seen
  doneSeen : ∀ c ∈ done, ∀ r ∈ c.2.needed, r.key ∈ p.queue.seen

/-- One step of generation: a pending class, any of them, is taken and rendered. -/
def Step (m : TypeMapper) (p : Progress) (c : Rendered) (p' : Progress) : Prop :=
  ∃ queue : ClassQueue, p.queue.Takes c.1 queue ∧ objectClass m c.1 = .ok c.2 ∧
    ({ p with queue } : Progress).accept c.2 = .ok p'

/-- A run of generation, with the classes that it renders in their order. -/
inductive Run (m : TypeMapper) : Progress → List Rendered → Progress → Prop
  | nil {p : Progress} : Run m p [] p
  | cons {p p' p'' : Progress} {c : Rendered} {taken : List Rendered} :
      Step m p c p' → Run m p' taken p'' → Run m p (c :: taken) p''

/-- Accepting a file is adding it and asking for all that it needs. -/
theorem accept_eq_ok {p p' : Progress} {listed : List SourceFile} (h : p.files.Holds listed)
    {e : Emitted} : p.accept e = .ok p' ↔
      p'.files.Holds (listed ++ [e.file]) ∧ p'.queue = p.queue.pushAll e.needed := by
  unfold Progress.accept
  simp only [bind_eq_ok, pure_eq_ok, FileSet.add_eq_ok h]
  constructor
  · rintro ⟨files, hfiles, rfl⟩
    exact ⟨hfiles, rfl⟩
  · rintro ⟨hfiles, hqueue⟩
    exact ⟨p'.files, hfiles, by rw [← hqueue]⟩

/-- What was asked for stays what is done or pending when a class is done and others are asked
for. -/
theorem Tracks.seen_of_accepts {members : List Emitted} {done : List Rendered} {p : Progress}
    {c : Rendered} (h : Tracks m members done p) {queue queue' : ClassQueue}
    (htakes : p.queue.Takes c.1 queue) {added : List ClassRequest}
    (haccepts : queue.Accepts added queue') : queue'.seen.Perm
      ((done ++ [c]).map Rendered.key ++ queue'.pending.map ClassRequest.key) := by
  calc
    List.Perm queue'.seen (p.queue.seen ++ added.map ClassRequest.key) :=
      htakes.seen ▸ haccepts.seen
    List.Perm _ (done.map Rendered.key ++ (c.1 :: queue.pending).map ClassRequest.key ++
        added.map ClassRequest.key) := by
      refine (h.seen.trans ?_).append_right _
      exact (htakes.pending.map _).append_left _
    _ = (done ++ [c]).map Rendered.key ++ (queue.pending ++ added).map ClassRequest.key := by
      simp
    List.Perm _ ((done ++ [c]).map Rendered.key ++ queue'.pending.map ClassRequest.key) :=
      (haccepts.pending.symm.map _).append_left _

/-- One step: the class that is taken is done, and what it needs is asked for. -/
theorem Tracks.step {members : List Emitted} {done : List Rendered} {p p' : Progress}
    {c : Rendered} (h : Tracks m members done p) (hstep : Step m p c p') :
    Tracks m members (done ++ [c]) p' := by
  obtain ⟨queue, htakes, hrendered, haccept⟩ := hstep
  obtain ⟨hfiles, hqueue⟩ := (accept_eq_ok (p := { p with queue }) h.files).1 haccept
  obtain ⟨⟨added, hadded, haccepts⟩, hneeded⟩ := queue.accepts_pushAll c.2.needed
  rw [← hqueue] at haccepts hneeded
  have htaken : c.1 ∈ p.queue.pending := htakes.pending.mem_iff.2 List.mem_cons_self
  have hserves := h.pendingServes c.1 htaken
  have hold : ∀ key ∈ p.queue.seen, key ∈ p'.queue.seen := fun key hkey =>
    haccepts.seen.mem_iff.2 (List.mem_append_left _ (htakes.seen.symm ▸ hkey))
  have hreached : Reached m members c.key := by
    refine h.reached _ (h.seen.mem_iff.2 ?_)
    exact List.mem_append_right _ (List.mem_map_of_mem htaken)
  have hperm : (allFiles m members done ++ [c.2.file]).Perm
      (allFiles m members (done ++ [c])) := by
    simp [allFiles]
  refine ⟨hfiles.perm hperm, h.seen_of_accepts htakes haccepts,
    haccepts.nodup (htakes.seen.symm ▸ h.nodup), ?_, fun r hr => ?_, ?_, fun key hkey => ?_,
    fun e he r hr => hold _ (h.membersSeen e he r hr), ?_⟩
  · exact List.forall_mem_append.2 ⟨h.doneServes, List.forall_mem_singleton.2 hserves⟩
  · rcases List.mem_append.1 (haccepts.pending.mem_iff.1 hr) with hr | hr
    · exact h.pendingServes r (htakes.pending.mem_iff.2 (List.mem_cons_of_mem _ hr))
    · exact ((requestFrame m).finishes_object hrendered).serves r (hadded hr)
  · exact List.forall_mem_append.2 ⟨h.rendered, List.forall_mem_singleton.2 hrendered⟩
  · rcases List.mem_append.1 (haccepts.seen.mem_iff.1 hkey) with hkey | hkey
    · exact h.reached key (htakes.seen ▸ hkey)
    · obtain ⟨r, hr, rfl⟩ := List.mem_map.1 hkey
      exact .ofClass hreached hserves.class_eq hrendered (hadded hr)
  · exact List.forall_mem_append.2
      ⟨fun d hd r hr => hold _ (h.doneSeen d hd r hr), List.forall_mem_singleton.2 hneeded⟩

/-- A run keeps track of all that it has done, whichever classes it took. -/
theorem Tracks.run {members : List Emitted} {done taken : List Rendered} {p p' : Progress}
    (h : Tracks m members done p) (hrun : Run m p taken p') :
    Tracks m members (done ++ taken) p' := by
  induction hrun generalizing done with
  | nil => rwa [List.append_nil]
  | @cons p p' p'' c taken hstep _ ih =>
    rw [List.append_cons]
    exact ih (h.step hstep)

section Tracks

variable {members : List Emitted} {done classes : List Rendered} {p p' : Progress}

theorem Tracks.done_nodup (h : Tracks m members done p) :
    (done.map Rendered.key ++ p.queue.pending.map ClassRequest.key).Nodup :=
  h.seen.nodup_iff.1 h.nodup

theorem Tracks.done_reached (h : Tracks m members done p) {c : Rendered} (hc : c ∈ done) :
    Reached m members c.key :=
  h.reached _ (h.seen.mem_iff.2 (List.mem_append_left _ (List.mem_map_of_mem hc)))

/-- When nothing is pending, all classes that are needed are done. -/
theorem Tracks.closure (h : Tracks m members done p) (hempty : p.queue.isEmpty = true) :
    Closure m members done := by
  have hpending := ClassQueue.isEmpty_iff.1 hempty
  have hseen : ∀ key, key ∈ p.queue.seen ↔ key ∈ done.map Rendered.key := by
    intro key
    rw [h.seen.mem_iff, hpending, List.map_nil, List.append_nil]
  refine ⟨fun key => ⟨fun hkey => ?_, fun hkey => h.reached key ((hseen key).2 hkey)⟩, ?_,
    h.doneServes, h.rendered⟩
  · rw [← hseen]
    induction hkey with
    | ofMember he hr => exact h.membersSeen _ he _ hr
    | @ofClass r s e _ hclass hrendered hs ih =>
      obtain ⟨c, hc, hkey⟩ := List.mem_map.1 ((hseen r.key).1 ih)
      obtain ⟨hsource, hdirection⟩ := Prod.mk.inj hkey
      have heq := (h.doneServes c hc).class_eq
      rw [hsource, hdirection, hclass] at heq
      obtain rfl := Except.ok.inj heq
      have hemitted := h.rendered c hc
      rw [hrendered] at hemitted
      obtain rfl := Except.ok.inj hemitted
      exact h.doneSeen c hc s hs
  · exact (List.nodup_append.1 h.done_nodup).1

theorem Tracks.subperm (h : Tracks m members done p) (hclasses : Closure m members classes) :
    done.Subperm classes := by
  have hnodup := (List.nodup_append.1 h.done_nodup).1
  refine List.subperm_of_subset (hnodup.of_map _) fun c hc => ?_
  exact hclasses.mem (h.doneServes c hc) (h.rendered c hc) (h.done_reached hc)

/-- As long as the paths of all files are distinct, any pending class can be taken next. -/
theorem Tracks.exists_accept (h : Tracks m members done p) (hclasses : Closure m members classes)
    (hpaths : ((allFiles m members classes).map SourceFile.path).Nodup) {r : ClassRequest}
    {queue : ClassQueue} (htakes : p.queue.Takes r queue) :
    ∃ e : Emitted, objectClass m r = .ok e ∧
      ∃ p' : Progress, ({ p with queue } : Progress).accept e = .ok p' := by
  have htaken : r ∈ p.queue.pending := htakes.pending.mem_iff.2 List.mem_cons_self
  have hserves := h.pendingServes r htaken
  have hseen : r.key ∈ p.queue.seen :=
    h.seen.mem_iff.2 (List.mem_append_right _ (List.mem_map_of_mem htaken))
  obtain ⟨e, he⟩ := hclasses.exists_mem hserves (h.reached _ hseen)
  refine ⟨e, hclasses.rendered (r, e) he, ?_⟩
  have hdone : ∀ c ∈ done, c ≠ (r, e) := by
    rintro c hc rfl
    have hne := (List.nodup_append.1 h.done_nodup).2.2
    exact hne _ (List.mem_map_of_mem hc) _ (List.mem_map_of_mem htaken) rfl
  have hsub : (done ++ [(r, e)]).Subperm classes := by
    have hnodup := ((List.nodup_append.1 h.done_nodup).1.of_map _)
    refine List.subperm_of_subset (List.nodup_append.2 ⟨hnodup, List.nodup_singleton _, ?_⟩) ?_
    · intro c hc d hd
      rw [List.mem_singleton.1 hd]
      exact hdone c hc
    · refine List.append_subset.2 ⟨(h.subperm hclasses).subset, ?_⟩
      rintro c hc
      rwa [List.mem_singleton.1 hc]
  have hnew : ((allFiles m members done ++ [e.file]).map SourceFile.path).Nodup := by
    obtain ⟨some, hperm, hsublist⟩ := hsub
    have hfiles : (allFiles m members done ++ [e.file]).Perm (allFiles m members some) := by
      have hmap := (hperm.symm.map fun c => c.2.file).append_left
        (members.map Emitted.file ++ Utilities.bundled m)
      simpa [allFiles] using hmap
    refine (hfiles.map _).nodup_iff.2 (hpaths.sublist ?_)
    exact ((hsublist.map _).append_left _).map _
  obtain ⟨files, hfiles⟩ := FileSet.exists_add h.files hnew
  exact ⟨⟨files, queue.pushAll e.needed⟩, by rw [Progress.accept, hfiles]; rfl⟩

/-- The program makes a run that ends with nothing pending. -/
theorem run_of_drain {limit : Nat} (h : drain m limit p = .ok p') :
    ∃ taken : List Rendered, Run m p taken p' ∧ p'.queue.isEmpty = true := by
  induction limit generalizing p with
  | zero =>
    unfold drain at h
    split at h
    · next hempty =>
      cases h
      exact ⟨[], .nil, hempty⟩
    · cases h
  | succ limit ih =>
    unfold drain at h
    split at h
    · next hempty =>
      cases h
      exact ⟨[], .nil, hempty⟩
    · obtain ⟨⟨r, queue⟩, hpop, h⟩ := bind_eq_ok.1 h
      obtain ⟨e, he, h⟩ := bind_eq_ok.1 h
      obtain ⟨next, hnext, h⟩ := bind_eq_ok.1 h
      obtain ⟨taken, hrun, hempty⟩ := ih h
      exact ⟨(r, e) :: taken, .cons ⟨queue, ClassQueue.takes_pop hpop, he, hnext⟩ hrun, hempty⟩

/-- As long as something is pending, the program can take a step. -/
theorem Tracks.exists_step (h : Tracks m members done p) (hclasses : Closure m members classes)
    (hpaths : ((allFiles m members classes).map SourceFile.path).Nodup)
    (hpending : p.queue.isEmpty ≠ true) :
    ∃ r queue e p', p.queue.pop = .ok (r, queue) ∧ objectClass m r = .ok e ∧
      ({ p with queue } : Progress).accept e = .ok p' ∧ Step m p (r, e) p' := by
  obtain ⟨r, queue, hpop⟩ := ClassQueue.exists_pop hpending
  have htakes := ClassQueue.takes_pop hpop
  obtain ⟨e, he, p', hp'⟩ := h.exists_accept hclasses hpaths htakes
  exact ⟨r, queue, e, p', hpop, he, hp', queue, htakes, he, hp'⟩

/-- The program's run is not cut short by its bound. -/
theorem Tracks.exists_drain {limit : Nat} (h : Tracks m members done p)
    (hclasses : Closure m members classes)
    (hpaths : ((allFiles m members classes).map SourceFile.path).Nodup)
    (hlimit : classes.length ≤ done.length + limit) : ∃ p', drain m limit p = .ok p' := by
  induction limit generalizing done p with
  | zero =>
    unfold drain
    split
    · exact ⟨p, rfl⟩
    · next hpending =>
      -- one more step would render more classes than there are
      obtain ⟨r, queue, e, p', -, -, -, hstep⟩ := h.exists_step hclasses hpaths hpending
      have hlonger := ((h.step hstep).subperm hclasses).length_le
      rw [List.length_append, List.length_singleton] at hlonger
      omega
  | succ limit ih =>
    unfold drain
    split
    · exact ⟨p, rfl⟩
    · next hpending =>
      obtain ⟨r, queue, e, p', hpop, he, hp', hstep⟩ := h.exists_step hclasses hpaths hpending
      have hleft : classes.length ≤ (done ++ [(r, e)]).length + limit := by
        rw [List.length_append, List.length_singleton]
        omega
      obtain ⟨last, hlast⟩ := ih (h.step hstep) hleft
      exact ⟨last, bind_eq_ok.2 ⟨_, hpop, bind_eq_ok.2 ⟨e, he, bind_eq_ok.2 ⟨p', hp', hlast⟩⟩⟩⟩

end Tracks

end SchemaToJava.Java.Generation
