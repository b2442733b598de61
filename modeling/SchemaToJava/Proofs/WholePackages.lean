import SchemaToJava.Proofs.ClassClosure
import SchemaToJava.Proofs.MemberClasses

/-!
The files of a whole package. Generation succeeds exactly when its members can be generated, every
needed object class can be rendered, and no two files share a path; the files are then those of the
members and of the needed object classes. Each of these classes is drafted by itself.
-/
namespace SchemaToJava.Java.Generation

open Package Outcome

variable {m : TypeMapper}

/-- Taking in several files is adding them all and asking for all that they need. -/
theorem acceptAll_eq_ok {p p' : Progress} {es : List Emitted} :
    p.acceptAll es = .ok p' ↔
      p.files.addAll (es.map Emitted.file) = .ok p'.files ∧
        p'.queue = p.queue.pushAll (es.flatMap Emitted.needed) := by
  induction es generalizing p with
  | nil =>
    rw [Progress.acceptAll, List.foldlM_nil, pure_eq_ok]
    rw [List.map_nil, FileSet.addAll, List.foldlM_nil, pure_eq_ok]
    constructor
    · rintro rfl
      exact ⟨rfl, rfl⟩
    · rintro ⟨hfiles, hqueue⟩
      obtain ⟨files, queue⟩ := p'
      obtain rfl : p.files = files := hfiles
      obtain rfl : queue = p.queue := hqueue
      rfl
  | cons e es ih =>
    rw [Progress.acceptAll, List.foldlM_cons, bind_eq_ok]
    rw [List.map_cons, FileSet.addAll, List.foldlM_cons, bind_eq_ok]
    rw [List.flatMap_cons, ClassQueue.pushAll, List.foldl_append]
    constructor
    · rintro ⟨middle, hmiddle, hrest⟩
      unfold Progress.accept at hmiddle
      obtain ⟨files, hfiles, hmiddle⟩ := bind_eq_ok.1 hmiddle
      obtain rfl := pure_eq_ok.1 hmiddle
      obtain ⟨hadded, hqueue⟩ := ih.1 hrest
      exact ⟨⟨files, hfiles, hadded⟩, hqueue⟩
    · rintro ⟨⟨files, hfiles, hadded⟩, hqueue⟩
      refine ⟨⟨files, p.queue.pushAll e.needed⟩, ?_, ih.2 ⟨hadded, hqueue⟩⟩
      exact bind_eq_ok.2 ⟨files, hfiles, rfl⟩

theorem acceptAll_append (p : Progress) (es others : List Emitted) :
    p.acceptAll (es ++ others) = p.acceptAll es >>= fun p => p.acceptAll others :=
  List.foldlM_append

theorem acceptAll_flatten (p : Progress) (ess : List (List Emitted)) :
    ess.foldlM Progress.acceptAll p = p.acceptAll ess.flatten := by
  induction ess generalizing p with
  | nil => rfl
  | cons es ess ih =>
    rw [List.foldlM_cons, List.flatten_cons, acceptAll_append]
    exact congrArg _ (funext ih)

theorem acceptAll_singleton (p : Progress) (e : Emitted) : p.acceptAll [e] = p.accept e := by
  rw [Progress.acceptAll, List.foldlM_cons]
  exact bind_pure _

/-- Generating the configuration or leaving it out takes in the classes of it that there are. -/
private theorem config_eq_ok {p p' : Progress} {next : Progress → Except GenerationError Progress} :
    (if m.package.config.isEmpty then do
        let p ← pure p
        next p
      else do
        let e ← ConfigClass.emit m
        let p ← p.accept e
        next p) = .ok p' ↔
      ∃ es, configClass m = .ok es ∧ ∃ q, p.acceptAll es = .ok q ∧ next q = .ok p' := by
  unfold configClass
  split
  · constructor
    · intro h
      exact ⟨[], rfl, p, rfl, h⟩
    · rintro ⟨_, ⟨⟩, _, ⟨⟩, h⟩
      exact h
  · simp only [bind_eq_ok, pure_eq_ok]
    constructor
    · rintro ⟨e, he, q, hq, h⟩
      exact ⟨[e], ⟨e, he, rfl⟩, q, by rwa [acceptAll_singleton], h⟩
    · rintro ⟨_, ⟨e, he, rfl⟩, q, hq, h⟩
      rw [acceptAll_singleton] at hq
      exact ⟨e, he, q, hq, h⟩

/-- Generating the members one after another takes in their classes in order. -/
theorem members_eq_ok {p p' : Progress} :
    members m p = .ok p' ↔ ∃ es, memberClasses m = .ok es ∧
      p.files.addAll (es.map Emitted.file ++ Utilities.bundled m) = .ok p'.files ∧
        p'.queue = p.queue.pushAll (es.flatMap Emitted.needed) := by
  have haccepted : members m p = .ok p' ↔ ∃ es, memberClasses m = .ok es ∧
      ∃ q, p.acceptAll es = .ok q ∧ ∃ files, q.files.addAll (Utilities.bundled m) = .ok files ∧
        (⟨files, q.queue⟩ : Progress) = p' := by
    unfold members memberClasses
    simp only [bind_eq_ok, foldlM_bind_eq_ok, acceptAll_flatten, config_eq_ok, pure_eq_ok]
    constructor
    · rintro ⟨p₁, ⟨resources, hresources, h₁⟩, groups, hgroups, p₂, ⟨functions, hfunctions, h₂⟩,
        p₃, ⟨enums, henums, h₃⟩, config, hconfig, p₄, h₄, utilities, hutilities, q, hq, hfiles⟩
      refine ⟨_, ⟨resources, hresources, groups, hgroups, functions, hfunctions, enums, henums,
        config, hconfig, utilities, hutilities, rfl⟩, q, ?_, hfiles⟩
      rw [← acceptAll_singleton] at hq
      simp only [acceptAll_append, bind_eq_ok]
      exact ⟨p₄, ⟨p₃, ⟨p₂, ⟨p₁, h₁, h₂⟩, h₃⟩, h₄⟩, hq⟩
    · rintro ⟨_, ⟨resources, hresources, groups, hgroups, functions, hfunctions, enums, henums,
        config, hconfig, utilities, hutilities, rfl⟩, q, hq, hfiles⟩
      simp only [acceptAll_append, bind_eq_ok] at hq
      obtain ⟨p₄, ⟨p₃, ⟨p₂, ⟨p₁, h₁, h₂⟩, h₃⟩, h₄⟩, hq⟩ := hq
      rw [acceptAll_singleton] at hq
      exact ⟨p₁, ⟨resources, hresources, h₁⟩, groups, hgroups, p₂, ⟨functions, hfunctions, h₂⟩,
        p₃, ⟨enums, henums, h₃⟩, config, hconfig, p₄, h₄, utilities, hutilities, q, hq, hfiles⟩
  rw [haccepted]
  simp only [acceptAll_eq_ok, FileSet.addAll_append, bind_eq_ok]
  constructor
  · rintro ⟨es, hes, q, ⟨hq, hqueue⟩, files, hfiles, rfl⟩
    exact ⟨es, hes, ⟨q.files, hq, hfiles⟩, hqueue⟩
  · rintro ⟨es, hes, ⟨middle, hmiddle, hfiles⟩, hqueue⟩
    exact ⟨es, hes, ⟨middle, p'.queue⟩, ⟨hmiddle, hqueue⟩, p'.files, hfiles, rfl⟩

/-- What the members of the package need are classes of its object types. -/
theorem memberClasses_serve {es : List Emitted} (h : memberClasses m = .ok es) :
    ∀ e ∈ es, ∀ r ∈ e.needed, m.Serves r := by
  intro e he
  obtain ⟨owner, -, howner⟩ := (delivers_memberClasses (requestFrame m) h).1 e he
  exact howner.serves

/-- When the members are generated, no object class is done and what they need is pending. -/
theorem tracks_members {es : List Emitted} {p : Progress} (hes : memberClasses m = .ok es)
    (h : members m {} = .ok p) : Tracks m es [] p := by
  obtain ⟨es', hes', hfiles, hqueue⟩ := members_eq_ok.1 h
  obtain rfl : es = es' := Except.ok.inj (hes.symm.trans hes')
  have hheld := (FileSet.addAll_eq_ok FileSet.holds_empty).1 hfiles
  obtain ⟨⟨added, hadded, haccepts⟩, hneeded⟩ :=
    ClassQueue.empty.accepts_pushAll (es.flatMap Emitted.needed)
  change p.queue = ClassQueue.empty.pushAll _ at hqueue
  rw [← hqueue] at haccepts hneeded
  have hserve : ∀ r ∈ added, ∃ e ∈ es, r ∈ e.needed := fun r hr => List.mem_flatMap.1 (hadded hr)
  constructor
  · simpa [allFiles] using hheld
  · calc
      List.Perm p.queue.seen (added.map ClassRequest.key) := haccepts.seen
      List.Perm _ (p.queue.pending.map ClassRequest.key) := haccepts.pending.symm.map _
  · exact haccepts.nodup .nil
  · exact fun c hc => absurd hc List.not_mem_nil
  · intro r hr
    obtain ⟨e, he, hr⟩ := hserve r (haccepts.pending.mem_iff.1 hr)
    exact memberClasses_serve hes e he r hr
  · exact fun c hc => absurd hc List.not_mem_nil
  · intro key hkey
    obtain ⟨r, hr, rfl⟩ := List.mem_map.1 (haccepts.seen.mem_iff.1 hkey)
    obtain ⟨e, he, hr⟩ := hserve r hr
    exact .ofMember he hr
  · exact fun e he r hr => hneeded r (List.mem_flatMap.2 ⟨e, he, hr⟩)
  · exact fun c hc => absurd hc List.not_mem_nil

theorem package_of_make {package : Package} {settings : Settings}
    (h : TypeMapper.make package settings = .ok m) : m.package = package := by
  obtain ⟨options, -, h⟩ := bind_eq_ok.1 h
  obtain rfl := pure_eq_ok.1 h
  rfl

theorem settings_of_make {package : Package} {settings : Settings}
    (h : TypeMapper.make package settings = .ok m) : m.settings = settings := by
  obtain ⟨options, -, h⟩ := bind_eq_ok.1 h
  obtain rfl := pure_eq_ok.1 h
  rfl

/-- The members can be generated when all files have distinct paths. -/
theorem exists_members {es : List Emitted} {classes : List Rendered} {files : FileSet}
    (hes : memberClasses m = .ok es) (hfiles : files.Holds (allFiles m es classes)) :
    ∃ p, members m {} = .ok p := by
  obtain ⟨first, hfirst⟩ : ∃ first : FileSet,
      first.Holds (es.map Emitted.file ++ Utilities.bundled m) := by
    refine FileSet.exists_holds (hfiles.nodup.sublist ?_)
    exact (List.sublist_append_left _ _).map _
  have hadded := (FileSet.addAll_eq_ok FileSet.holds_empty).2 hfirst
  exact ⟨⟨first, _⟩, members_eq_ok.2 ⟨es, hes, hadded, rfl⟩⟩

/-- Generation succeeds exactly when the members and the object classes that are needed can be
rendered to files of distinct paths, and gives those. -/
theorem generate_eq_ok {package : Package} {settings : Settings} {files : FileSet} :
    generate package settings = .ok files ↔
      ∃ m members classes, TypeMapper.make package settings = .ok m ∧
        memberClasses m = .ok members ∧ Closure m members classes ∧
        files.Holds (allFiles m members classes) := by
  unfold generate
  simp only [bind_eq_ok, pure_eq_ok]
  constructor
  · rintro ⟨m, hm, p, hp, last, hlast, rfl⟩
    obtain ⟨es, hes, -⟩ := members_eq_ok.1 hp
    obtain ⟨taken, hrun, hempty⟩ := run_of_drain hlast
    have htracks := (tracks_members hes hp).run hrun
    exact ⟨m, es, taken, hm, hes, htracks.closure hempty, htracks.files⟩
  · rintro ⟨m, es, classes, hm, hes, hclasses, hfiles⟩
    obtain ⟨start, hmembers⟩ := exists_members hes hfiles
    have htracks := tracks_members hes hmembers
    have hlimit : classes.length ≤ ([] : List Rendered).length + classBound package := by
      rw [List.length_nil, Nat.zero_add, ← package_of_make hm]
      exact hclasses.length_le
    obtain ⟨last, hlast⟩ := htracks.exists_drain hclasses hfiles.nodup hlimit
    obtain ⟨taken, hrun, hempty⟩ := run_of_drain hlast
    have hdone := htracks.run hrun
    have hperm := (hdone.closure hempty).perm hclasses
    have hheld : last.files.Holds (allFiles m es classes) :=
      hdone.files.perm ((hperm.map _).append_left _)
    exact ⟨m, hm, start, hmembers, last, hlast, hheld.eq hfiles⟩

/-- What makes the text of a class of the package: one of a member, or that of an object type that
is requested. -/
inductive IsClassBody (m : TypeMapper) (requested : ClassRequest → Prop) : ClassBody → Prop
  | member {b : ClassBody} : IsMemberBody m b → IsClassBody m requested b
  | object {r : ClassRequest} {b : ClassBody} :
      requested r → objectBody m r = .ok b → IsClassBody m requested b

theorem IsClassBody.keeps {requested : ClassRequest → Prop} {b : ClassBody}
    (h : IsClassBody m requested b) (F : DraftFrame m) : F.lenient.Keeps b.text := by
  cases h with
  | member hb => exact keeps_memberBody F hb
  | object _ hb => exact (F.keeps_objectBody hb).2

section Drafts

variable {members : List Emitted} {classes : List Rendered}

/-- Each class of the package has a file, which is its draft. -/
theorem IsClassBody.exists_file (hmembers : memberClasses m = .ok members)
    (hclasses : Closure m members classes) {b : ClassBody}
    (h : IsClassBody m (fun r => ∃ e, (r, e) ∈ classes) b) :
    ∃ e, b.draft m.settings = .ok e ∧ e.file ∈ allFiles m members classes := by
  cases h with
  | member hb =>
    obtain ⟨bodies, hbodies, hdrafts⟩ := exists_memberBodies hmembers
    obtain ⟨e, he, hdraft⟩ := exists_of_mem_of_mapM hdrafts ((mem_memberBodies hbodies).2 hb)
    refine ⟨e, hdraft, ?_⟩
    simp [allFiles, List.mem_map_of_mem he]
  | object hrequested hb =>
    obtain ⟨e, he⟩ := hrequested
    have hrendered := hclasses.rendered _ he
    rw [objectClass_eq, hb] at hrendered
    exact ⟨e, hrendered, List.mem_append_right _ (List.mem_map.2 ⟨_, he, rfl⟩)⟩

/-- Each file that is not bundled is the draft of a class of the package. -/
theorem exists_classBody (hmembers : memberClasses m = .ok members)
    (hclasses : Closure m members classes) {file : SourceFile}
    (h : file ∈ allFiles m members classes) : file ∈ Utilities.bundled m ∨
      ∃ b e, IsClassBody m (fun r => ∃ e, (r, e) ∈ classes) b ∧ b.draft m.settings = .ok e ∧
        e.file = file := by
  unfold allFiles at h
  rcases List.mem_append.1 h with h | h
  · rcases List.mem_append.1 h with h | h
    · obtain ⟨e, he, rfl⟩ := List.mem_map.1 h
      obtain ⟨bodies, hbodies, hdrafts⟩ := exists_memberBodies hmembers
      obtain ⟨b, hb, hdraft⟩ := exists_of_mem_mapM hdrafts he
      exact .inr ⟨b, e, .member ((mem_memberBodies hbodies).1 hb), hdraft, rfl⟩
    · exact .inl h
  · obtain ⟨⟨r, e⟩, hr, rfl⟩ := List.mem_map.1 h
    have hrendered := hclasses.rendered _ hr
    rw [objectClass_eq] at hrendered
    obtain ⟨b, hb, hdraft⟩ := bind_eq_ok.1 hrendered
    exact .inr ⟨b, e, .object ⟨e, hr⟩ hb, hdraft, rfl⟩

end Drafts

end SchemaToJava.Java.Generation
