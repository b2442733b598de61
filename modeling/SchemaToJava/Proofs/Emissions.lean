import Mathlib.Data.List.Duplicate
import SchemaToJava.Proofs.InternalErrors
import SchemaToJava.Proofs.OwnReferences

/-!
The order in which classes are emitted. A run of generation emits the classes of one member of the
package after another, and then one object class after another, as long as one is pending; whether
their files can be added has no influence on what comes next. The only fault that emitting itself
never has is a path that is taken. So generation fails for that reason only where the classes
emitted so far have a path twice.
-/
namespace SchemaToJava.Java

open Package Outcome

theorem TypeMapper.isDuplicate_of_parseToken {token : String} {e : GenerationError}
    (h : parseToken token = .error e) : e.isDuplicate = false := by
  unfold parseToken at h
  cases hp : Schema.Token.parse token with
  | ok t =>
    rw [hp] at h
    cases h
  | error failed =>
    rw [hp] at h
    cases h
    rfl

theorem TypeMapper.FailsAt.isDuplicate {m : TypeMapper} {n : ResolvedType} {e : GenerationError}
    (h : m.FailsAt n e) : e.isDuplicate = false := by
  cases h with
  | object h => exact isDuplicate_of_parseToken h
  | enum h => exact isDuplicate_of_parseToken h
  | resource h => exact isDuplicate_of_parseToken h
  | missingObject => rfl
  | missingEnum => rfl

/-- Writing a file fails for any reason but the paths of other files. -/
def writingDiscipline (m : TypeMapper) : Discipline m where
  toDraftFrame := requestFrame m
  admits _ := True
  raises e := e.isDuplicate = false
  raises_other _ _ hwritten := hwritten
  raises_shape _ h := by
    obtain ⟨n, -, hfails⟩ := TypeMapper.exists_failsAt_of_typeShape h
    exact hfails.isDuplicate

namespace Generation

/-- A class that is emitted: its name and its file, with the classes that this needs. -/
abbrev Emission := QualifiedName × Emitted

abbrev Emission.path (c : Emission) : String := classPath c.1

def named (files : Except GenerationError (List Emitted))
    (names : Except GenerationError (List QualifiedName)) :
    Except GenerationError (List Emission) := do
  let es ← files
  return (← names).zip es

def resourceEmissions (m : TypeMapper) (r : Resource) : Except GenerationError (List Emission) :=
  named (ResourceClass.emit m r) do return (← ResourceClass.ofResource m r).classNames

def functionsEmissions (m : TypeMapper) (group : QualifiedName × List Package.Function) :
    Except GenerationError (List Emission) :=
  named (FunctionsClass.emit m group.1 group.2) do
    let signatures ← group.2.mapM (FunctionsClass.signature m)
    return group.1 :: signatures.flatMap FunctionSignature.classNames

def enumEmissions (m : TypeMapper) (e : EnumType) : Except GenerationError (List Emission) :=
  named (do return [← EnumClass.emit m e]) do return [← m.enumClass e.token]

/-- What all functions emit, class by class; nothing if they have no classes. -/
def groupEmissions (m : TypeMapper) : List (Except GenerationError (List Emission)) :=
  match FunctionsClass.group m m.package.functions with
  | .ok groups => groups.map (functionsEmissions m)
  | .error e => [.error e]

/-- What the resources, the functions and the enums of the package emit, in this order. -/
def declaredEmissions (m : TypeMapper) : List (Except GenerationError (List Emission)) :=
  (resources m.package).map (resourceEmissions m) ++ groupEmissions m ++
    (enums m.package).map (enumEmissions m)

def configEmissions (m : TypeMapper) : Except GenerationError (List Emission) :=
  named (do return [← ConfigClass.emit m]) (.ok [m.root.append "Config"])

def utilitiesEmissions (m : TypeMapper) : Except GenerationError (List Emission) :=
  named (do return [← Utilities.emit m]) (.ok [m.root.append utilitiesClass])

def supportEmissions (m : TypeMapper) : List (Except GenerationError (List Emission)) :=
  (if m.package.config.isEmpty then [] else [configEmissions m]) ++ [utilitiesEmissions m]

def memberEmissions (m : TypeMapper) : List (Except GenerationError (List Emission)) :=
  declaredEmissions m ++ supportEmissions m

/-- A run of generation: the classes emitted so far, the members that are still to come, and the
object classes that are asked for. -/
inductive Emits (m : TypeMapper) :
    List Emission → List (Except GenerationError (List Emission)) → ClassQueue → Prop
  | start : Emits m [] (memberEmissions m) .empty
  | member {log es : List Emission} {later : List (Except GenerationError (List Emission))}
      {queue : ClassQueue} : Emits m log (.ok es :: later) queue →
      Emits m (log ++ es) later (queue.pushAll (es.flatMap fun c => c.2.needed))
  | object {log : List Emission} {queue rest : ClassQueue} {r : ClassRequest} {e : Emitted} :
      Emits m log [] queue → queue.pop = .ok (r, rest) → objectClass m r = .ok e →
      Emits m (log ++ [(r.name, e)]) [] (rest.pushAll e.needed)

def Progress.take (p : Progress) (x : Except GenerationError (List Emission)) :
    Except GenerationError Progress := do
  p.acceptAll ((← x).map Prod.snd)

/-- The outcome of a member of the package. -/
inductive IsMember (m : TypeMapper) : Except GenerationError (List Emission) → Prop
  | resource {r : Resource} : r ∈ resources m.package → IsMember m (resourceEmissions m r)
  | ungrouped {e : GenerationError} :
      FunctionsClass.group m m.package.functions = .error e → IsMember m (.error e)
  | functions {groups : List (QualifiedName × List Package.Function)}
      {group : QualifiedName × List Package.Function} :
      FunctionsClass.group m m.package.functions = .ok groups → group ∈ groups →
      IsMember m (functionsEmissions m group)
  | enum {e : EnumType} : e ∈ enums m.package → IsMember m (enumEmissions m e)
  | config : m.package.config.isEmpty = false → IsMember m (configEmissions m)
  | utilities : IsMember m (utilitiesEmissions m)

variable {m : TypeMapper}

/-- What is listed for the members is what one of them emits. -/
theorem isMember_of_mem {x : Except GenerationError (List Emission)} (hx : x ∈ memberEmissions m) :
    IsMember m x := by
  simp only [memberEmissions, declaredEmissions, supportEmissions, List.mem_append] at hx
  rcases hx with ((hx | hx) | hx) | hx | hx
  · obtain ⟨r, hr, rfl⟩ := List.mem_map.1 hx
    exact .resource hr
  · unfold groupEmissions at hx
    split at hx
    · next groups hgroups =>
      obtain ⟨group, hgroup, rfl⟩ := List.mem_map.1 hx
      exact .functions hgroups hgroup
    · next e he =>
      obtain rfl := List.mem_singleton.1 hx
      exact .ungrouped he
  · obtain ⟨e, he, rfl⟩ := List.mem_map.1 hx
    exact .enum he
  · split at hx
    · cases hx
    · next hempty =>
      obtain rfl := List.mem_singleton.1 hx
      exact .config (Bool.eq_false_iff.2 hempty)
  · obtain rfl := List.mem_singleton.1 hx
    exact .utilities

/-- The files are those of the classes with the names, one for each. -/
def AreNamed (m : TypeMapper) (files : Except GenerationError (List Emitted))
    (names : Except GenerationError (List QualifiedName)) : Prop :=
  ∀ es, files = .ok es → ∃ ns, names = .ok ns ∧ List.Forall₂ (requestFrame m).Finishes ns es

section Named

variable {files : Except GenerationError (List Emitted)}
  {names : Except GenerationError (List QualifiedName)}

theorem named_eq_ok (h : AreNamed m files names) {cs : List Emission} :
    named files names = .ok cs ↔
      files = .ok (cs.map Prod.snd) ∧ names = .ok (cs.map Prod.fst) := by
  unfold named
  simp only [bind_eq_ok, pure_eq_ok]
  constructor
  · rintro ⟨es, hes, ns, hns, rfl⟩
    obtain ⟨ns', hns', hfinishes⟩ := h es hes
    obtain rfl := Except.ok.inj (hns.symm.trans hns')
    have hlength := hfinishes.length_eq
    rw [List.map_fst_zip (Nat.le_of_eq hlength), List.map_snd_zip (Nat.le_of_eq hlength.symm)]
    exact ⟨hes, hns⟩
  · rintro ⟨hes, hns⟩
    exact ⟨_, hes, _, hns, (List.zip_of_prod rfl rfl).symm⟩

theorem named_eq_error (h : AreNamed m files names) {e : GenerationError} :
    named files names = .error e ↔ files = .error e := by
  cases files with
  | error failed =>
    constructor
    · rintro ⟨⟩
      rfl
    · rintro ⟨⟩
      rfl
  | ok es =>
    obtain ⟨ns, rfl, -⟩ := h es rfl
    exact ⟨nofun, nofun⟩

/-- The names of the classes have no influence on what is taken in. -/
theorem take_named (h : AreNamed m files names) (p : Progress) :
    p.take (named files names) = files >>= p.acceptAll := by
  cases files with
  | error failed => rfl
  | ok es =>
    obtain ⟨ns, rfl, hfinishes⟩ := h es rfl
    change p.acceptAll ((ns.zip es).map Prod.snd) = p.acceptAll es
    rw [List.map_snd_zip (Nat.le_of_eq hfinishes.length_eq.symm)]

theorem finishes_of_named (h : AreNamed m files names) {cs : List Emission}
    (hcs : named files names = .ok cs) : ∀ c ∈ cs, (requestFrame m).Finishes c.1 c.2 := by
  obtain ⟨hfiles, hnames⟩ := (named_eq_ok h).1 hcs
  obtain ⟨ns, hns, hfinishes⟩ := h _ hfiles
  obtain rfl := Except.ok.inj (hnames.symm.trans hns)
  rw [List.forall₂_map_left_iff, List.forall₂_map_right_iff, List.forall₂_same] at hfinishes
  exact hfinishes

end Named

theorem areNamed_resource (r : Resource) : AreNamed m (ResourceClass.emit m r)
    (do return (← ResourceClass.ofResource m r).classNames) := by
  intro es h
  obtain ⟨c, hc, hfinishes⟩ := (requestFrame m).finishes_resource h
  exact ⟨_, bind_eq_ok.2 ⟨c, hc, rfl⟩, hfinishes⟩

theorem areNamed_functions (group : QualifiedName × List Package.Function) :
    AreNamed m (FunctionsClass.emit m group.1 group.2) (do
      let signatures ← group.2.mapM (FunctionsClass.signature m)
      return group.1 :: signatures.flatMap FunctionSignature.classNames) := by
  intro es h
  obtain ⟨signatures, hsignatures, hfinishes⟩ := (requestFrame m).finishes_functions h
  exact ⟨_, bind_eq_ok.2 ⟨signatures, hsignatures, rfl⟩, hfinishes⟩

theorem areNamed_enum (e : EnumType) : AreNamed m (do return [← EnumClass.emit m e])
    (do return [← m.enumClass e.token]) := by
  intro es h
  obtain ⟨emitted, hemit, h⟩ := bind_eq_ok.1 h
  obtain rfl := pure_eq_ok.1 h
  obtain ⟨name, hname, hfinishes⟩ := (requestFrame m).finishes_enum hemit
  exact ⟨[name], bind_eq_ok.2 ⟨name, hname, rfl⟩, .cons hfinishes .nil⟩

theorem areNamed_singleton {file : Except GenerationError Emitted} {name : QualifiedName}
    (h : ∀ e, file = .ok e → (requestFrame m).Finishes name e) :
    AreNamed m (do return [← file]) (.ok [name]) := by
  intro es hes
  obtain ⟨e, he, hes⟩ := bind_eq_ok.1 hes
  obtain rfl := pure_eq_ok.1 hes
  exact ⟨[name], rfl, .cons (h e he) .nil⟩

theorem areNamed_config :
    AreNamed m (do return [← ConfigClass.emit m]) (.ok [m.root.append "Config"]) :=
  areNamed_singleton fun _ h => (requestFrame m).finishes_config h

theorem areNamed_utilities :
    AreNamed m (do return [← Utilities.emit m]) (.ok [m.root.append utilitiesClass]) :=
  areNamed_singleton fun _ h => (requestFrame m).finishes_utilities h

/-- Taking in what several members emit is emitting their files one after another. -/
theorem foldlM_take_map {α : Type} {emissions : α → Except GenerationError (List Emission)}
    {files : α → Except GenerationError (List Emitted)}
    (h : ∀ x (p : Progress), p.take (emissions x) = files x >>= p.acceptAll) (xs : List α)
    (p : Progress) : (xs.map emissions).foldlM Progress.take p =
      xs.foldlM (fun p x => files x >>= p.acceptAll) p := by
  rw [List.foldlM_map]
  exact congrArg (List.foldlM · p xs) (funext₂ fun p x => h x p)

theorem foldlM_take_groups (p : Progress) : (groupEmissions m).foldlM Progress.take p =
    FunctionsClass.group m m.package.functions >>= fun groups =>
      groups.foldlM (fun p group => FunctionsClass.emit m group.1 group.2 >>= p.acceptAll) p := by
  unfold groupEmissions
  cases FunctionsClass.group m m.package.functions with
  | error e => rfl
  | ok groups => exact foldlM_take_map (fun group => take_named (areNamed_functions group)) groups p

theorem take_named_singleton {file : Except GenerationError Emitted}
    {names : Except GenerationError (List QualifiedName)}
    (h : AreNamed m (do return [← file]) names) (p : Progress) :
    p.take (named (do return [← file]) names) = file >>= p.accept := by
  rw [take_named h, bind_assoc]
  simp only [pure_bind, acceptAll_singleton]

/-- Taking in what the members emit is generating them. -/
theorem members_eq (p : Progress) :
    members m p = (memberEmissions m).foldlM Progress.take p >>= fun p => do
      return { p with files := ← p.files.addAll (Utilities.bundled m) } := by
  have hresources (p : Progress) : ((resources m.package).map (resourceEmissions m)).foldlM
      Progress.take p =
        (resources m.package).foldlM (fun p r => ResourceClass.emit m r >>= p.acceptAll) p :=
    foldlM_take_map (fun r => take_named (areNamed_resource r)) _ p
  have henums (p : Progress) : ((enums m.package).map (enumEmissions m)).foldlM Progress.take p =
      (enums m.package).foldlM (fun p e => EnumClass.emit m e >>= p.accept) p := by
    rw [List.foldlM_map]
    exact congrArg (List.foldlM · p _) (funext₂ fun p e => take_named_singleton (areNamed_enum e) p)
  have hconfig (p : Progress) : p.take (configEmissions m) = ConfigClass.emit m >>= p.accept :=
    take_named_singleton areNamed_config p
  have hutilities (p : Progress) : p.take (utilitiesEmissions m) = Utilities.emit m >>= p.accept :=
    take_named_singleton areNamed_utilities p
  unfold members memberEmissions declaredEmissions supportEmissions
  simp only [List.foldlM_append, hresources, foldlM_take_groups, henums, bind_assoc,
    List.foldlM_cons, List.foldlM_nil, hutilities, bind_pure]
  refine bind_congr fun p => bind_congr fun groups => bind_congr fun p => bind_congr fun p => ?_
  split
  · simp only [List.foldlM_nil, pure_bind]
  · simp only [List.foldlM_cons, List.foldlM_nil, hconfig, bind_assoc, pure_bind]

section Faults

open Discipline

theorem allows_named {files : Except GenerationError (List Emitted)}
    {names : Except GenerationError (List QualifiedName)} (h : AreNamed m files names)
    (hfiles : (writingDiscipline m).Allows files) :
    (writingDiscipline m).Allows (named files names) :=
  fun e he => hfiles e ((named_eq_error h).1 he)

theorem allows_singleton {file : Except GenerationError Emitted}
    (h : (writingDiscipline m).Allows file) :
    (writingDiscipline m).Allows (do return [← file]) :=
  allows_bind h fun e _ => allows_ok [e]

theorem suits_all (properties : List Property) : (writingDiscipline m).Suits properties :=
  fun _ _ => ⟨trivial, trivial⟩

theorem allows_token (token : String) :
    (writingDiscipline m).Allows (TypeMapper.parseToken token) :=
  fun _ h => TypeMapper.isDuplicate_of_parseToken h

/-- What a member emits never fails because a path is taken. -/
theorem IsMember.allows {x : Except GenerationError (List Emission)} (hx : IsMember m x) :
    (writingDiscipline m).Allows x := by
  cases hx with
  | @resource r hr =>
    exact allows_named (areNamed_resource r)
      (allows_resource (allows_token r.token) (suits_all r.allProperties))
  | @ungrouped e he =>
    exact allows_error (allows_group (fun f _ => allows_token f.token) e he)
  | @functions groups group =>
    exact allows_named (areNamed_functions group) (allows_functions
      (fun f _ => allows_token f.token) fun f _ => suits_all f.allProperties)
  | @enum e he =>
    exact allows_named (areNamed_enum e) (allows_singleton (allows_enum (allows_token e.token)))
  | config =>
    refine allows_named areNamed_config (allows_singleton (allows_draftClass ?_))
    exact (writingDiscipline m).keeps_configText fun _ _ => trivial
  | utilities =>
    refine allows_named areNamed_utilities (allows_singleton (allows_draftClass ?_))
    exact (writingDiscipline m).keeps_utilitiesText

/-- Nor does an object class. -/
theorem allows_objectClass (r : ClassRequest) :
    (writingDiscipline m).Allows (objectClass m r) := by
  unfold objectClass
  split
  · exact allows_error rfl
  · split
    · exact allows_output fun _ _ => trivial
    · refine allows_input ?_ fun _ _ => trivial
      dsimp only
      split <;> rfl

end Faults

/-- A path that is among those of the files and of the added ones stands twice in the list. -/
theorem duplicate_append {α : Type} {x : α} {xs ys : List α} (hxs : x ∈ xs) (hys : x ∈ ys) :
    List.Duplicate x (xs ++ ys) :=
  List.duplicate_iff_sublist.2
    ((List.singleton_sublist.2 hxs).append (List.singleton_sublist.2 hys))

theorem duplicate_of_add {files : FileSet} {listed : List SourceFile} (h : files.Holds listed)
    {file : SourceFile} {e : GenerationError} (herror : files.add file = .error e) :
    e = .duplicateFile file.path ∧ file.path ∈ listed.map SourceFile.path := by
  unfold FileSet.add at herror
  split at herror
  · next hused =>
    exact ⟨(Except.error.inj herror).symm, h.keys_perm.mem_iff.1 (Dictionary.contains_iff.1 hused)⟩
  · cases herror

/-- Emitted files cannot be taken in only where a path comes twice. -/
theorem duplicate_of_acceptAll {p : Progress} {listed : List SourceFile} {es : List Emitted}
    {e : GenerationError} (h : p.files.Holds listed) (herror : p.acceptAll es = .error e) :
    ∃ path, e = .duplicateFile path ∧
      List.Duplicate path ((listed ++ es.map Emitted.file).map SourceFile.path) := by
  induction es generalizing p listed with
  | nil => cases herror
  | cons first rest ih =>
    rw [Progress.acceptAll, List.foldlM_cons] at herror
    rcases bind_eq_error.1 herror with herror | ⟨q, hq, herror⟩
    · obtain ⟨rfl, hmem⟩ := duplicate_of_add h (bind_pure_eq_error.1 herror)
      refine ⟨_, rfl, ?_⟩
      rw [List.map_append]
      exact duplicate_append hmem (by simp)
    · obtain ⟨path, rfl, hduplicate⟩ := ih ((accept_eq_ok h).1 hq).1 herror
      exact ⟨path, rfl, by simpa using hduplicate⟩

/-- A member emits the classes that it should, each with its file. -/
theorem IsMember.finishes {x : Except GenerationError (List Emission)} (hx : IsMember m x)
    {cs : List Emission} (hcs : x = .ok cs) :
    ∀ c ∈ cs, IsMemberClass m c.1 ∧ (requestFrame m).Finishes c.1 c.2 := by
  suffices h : (∀ name ∈ cs.map Prod.fst, IsMemberClass m name) ∧
      ∀ c ∈ cs, (requestFrame m).Finishes c.1 c.2 from
    fun c hc => ⟨h.1 c.1 (List.mem_map_of_mem hc), h.2 c hc⟩
  cases hx with
  | @resource r hr =>
    have hnamed := areNamed_resource (m := m) r
    refine ⟨fun name hname => ?_, finishes_of_named hnamed hcs⟩
    obtain ⟨c, hc, hnames⟩ := bind_eq_ok.1 ((named_eq_ok hnamed).1 hcs).2
    rw [← pure_eq_ok.1 hnames] at hname
    exact .resource hr hc hname
  | ungrouped => cases hcs
  | @functions groups group hgroups hgroup =>
    have hnamed := areNamed_functions (m := m) group
    refine ⟨fun name hname => ?_, finishes_of_named hnamed hcs⟩
    obtain ⟨signatures, hsignatures, hnames⟩ := bind_eq_ok.1 ((named_eq_ok hnamed).1 hcs).2
    rw [← pure_eq_ok.1 hnames] at hname
    obtain ⟨hne, -, hmem⟩ := mem_group hgroups
    rcases List.mem_cons.1 hname with rfl | hname
    · obtain ⟨f, hf⟩ := List.exists_mem_of_ne_nil group.2 (hne group.1 group.2 hgroup)
      obtain ⟨hdeclared, hclass⟩ := (hmem group.1 f).2 ⟨group.2, hgroup, hf⟩
      exact .functions hdeclared hclass
    · obtain ⟨s, hs, hname⟩ := List.mem_flatMap.1 hname
      obtain ⟨f, hf, hsignature⟩ := exists_of_mem_mapM hsignatures hs
      exact .function ((hmem group.1 f).2 ⟨group.2, hgroup, hf⟩).1 hsignature hname
  | @enum e he =>
    have hnamed := areNamed_enum (m := m) e
    refine ⟨fun name hname => ?_, finishes_of_named hnamed hcs⟩
    obtain ⟨found, hfound, hnames⟩ := bind_eq_ok.1 ((named_eq_ok hnamed).1 hcs).2
    rw [← pure_eq_ok.1 hnames] at hname
    obtain rfl := List.mem_singleton.1 hname
    exact .enum he hfound
  | config hvariables =>
    refine ⟨fun name hname => ?_, finishes_of_named areNamed_config hcs⟩
    rw [← Except.ok.inj ((named_eq_ok areNamed_config).1 hcs).2] at hname
    obtain rfl := List.mem_singleton.1 hname
    exact .config hvariables
  | utilities =>
    refine ⟨fun name hname => ?_, finishes_of_named areNamed_utilities hcs⟩
    rw [← Except.ok.inj ((named_eq_ok areNamed_utilities).1 hcs).2] at hname
    obtain rfl := List.mem_singleton.1 hname
    exact .utilities

/-- An emitted class is that of a member or of an object type. -/
inductive IsEmission (m : TypeMapper) : Emission → Prop
  | member {c : Emission} : IsMemberClass m c.1 → (requestFrame m).Finishes c.1 c.2 →
      IsEmission m c
  | object {r : ClassRequest} {e : Emitted} :
      m.Serves r → objectClass m r = .ok e → IsEmission m (r.name, e)

theorem IsEmission.finishes {c : Emission} (h : IsEmission m c) :
    (requestFrame m).Finishes c.1 c.2 := by
  cases h with
  | member _ hfinishes => exact hfinishes
  | object _ hemitted => exact (requestFrame m).finishes_object hemitted

theorem IsEmission.path_eq {c : Emission} (h : IsEmission m c) : c.2.file.path = c.path :=
  h.finishes.path_eq

/-- What holds all along a run: only classes of members and of object types are emitted, and only
members and object types are still to come. -/
structure Proceeds (m : TypeMapper) (log : List Emission)
    (later : List (Except GenerationError (List Emission))) (queue : ClassQueue) : Prop where
  emissions : ∀ c ∈ log, IsEmission m c
  members : ∀ x ∈ later, IsMember m x
  pending : ∀ r ∈ queue.pending, m.Serves r

/-- What an emitted class needs may be added to what is pending. -/
theorem serves_pushAll {queue : ClassQueue} (h : ∀ r ∈ queue.pending, m.Serves r)
    {needed : List ClassRequest} (hneeded : ∀ r ∈ needed, m.Serves r) :
    ∀ r ∈ (queue.pushAll needed).pending, m.Serves r := by
  obtain ⟨⟨added, hadded, haccepts⟩, -⟩ := queue.accepts_pushAll needed
  intro r hr
  rcases List.mem_append.1 (haccepts.pending.mem_iff.1 hr) with hr | hr
  · exact h r hr
  · exact hneeded r (hadded hr)

/-- The invariant of runs, step by step. -/
theorem Emits.proceeds {log : List Emission}
    {later : List (Except GenerationError (List Emission))} {queue : ClassQueue}
    (h : Emits m log later queue) : Proceeds m log later queue := by
  induction h with
  | start =>
    exact ⟨fun c hc => absurd hc List.not_mem_nil, fun x hx => isMember_of_mem hx,
      fun r hr => absurd hr List.not_mem_nil⟩
  | @member log es later queue _ ih =>
    have hes : ∀ c ∈ es, IsEmission m c := fun c hc =>
      have hmember := (ih.members _ List.mem_cons_self).finishes rfl c hc
      .member hmember.1 hmember.2
    refine ⟨fun c hc => ?_, fun x hx => ih.members x (List.mem_cons_of_mem _ hx), ?_⟩
    · exact (List.mem_append.1 hc).elim (ih.emissions c) (hes c)
    · refine serves_pushAll ih.pending fun r hr => ?_
      obtain ⟨c, hc, hr⟩ := List.mem_flatMap.1 hr
      exact (hes c hc).finishes.serves r hr
  | @object log queue rest r e _ hpop he ih =>
    have htakes := ClassQueue.takes_pop hpop
    have hserves := ih.pending r (htakes.pending.mem_iff.2 List.mem_cons_self)
    refine ⟨fun c hc => ?_, fun x hx => absurd hx List.not_mem_nil, ?_⟩
    · rcases List.mem_append.1 hc with hc | hc
      · exact ih.emissions c hc
      · exact List.mem_singleton.1 hc ▸ .object hserves he
    · refine serves_pushAll (fun s hs => ih.pending s ?_) ?_
      · exact htakes.pending.mem_iff.2 (List.mem_cons_of_mem r hs)
      · exact ((requestFrame m).finishes_object he).serves

/-- A run up to the step in which a path comes for the second time. -/
structure Clashes (m : TypeMapper) (path : String) (log es : List Emission) : Prop where
  emits : ∃ later queue, Emits m (log ++ es) later queue
  /-- Before that step, all paths are different. -/
  apart : (log.map Emission.path).Nodup
  twice : List.Duplicate path ((log ++ es).map Emission.path)

def filesOf (log : List Emission) : List SourceFile := log.map fun c => c.2.file

theorem filesOf_append (log es : List Emission) : filesOf (log ++ es) = filesOf log ++ filesOf es :=
  List.map_append

section Runs

variable {log : List Emission} {later : List (Except GenerationError (List Emission))}
  {p p' : Progress} {path : String}

theorem Proceeds.paths_eq {queue : ClassQueue} (h : Proceeds m log later queue) :
    (filesOf log).map SourceFile.path = log.map Emission.path := by
  rw [filesOf, List.map_map]
  exact List.map_congr_left fun c hc => (h.emissions c hc).path_eq

theorem take_eq_ok (hfiles : p.files.Holds (filesOf log)) {es : List Emission} :
    p.take (.ok es) = .ok p' ↔ p'.files.Holds (filesOf (log ++ es)) ∧
      p'.queue = p.queue.pushAll (es.flatMap fun c => c.2.needed) := by
  change p.acceptAll (es.map Prod.snd) = .ok p' ↔ _
  rw [acceptAll_eq_ok, FileSet.addAll_eq_ok hfiles, List.map_map, List.flatMap_map, filesOf_append]
  rfl

theorem duplicate_of_take (hfiles : p.files.Holds (filesOf log)) {es : List Emission}
    {e : GenerationError} (herror : p.take (.ok es) = .error e) :
    ∃ path, e = .duplicateFile path ∧
      List.Duplicate path ((filesOf (log ++ es)).map SourceFile.path) := by
  change p.acceptAll (es.map Prod.snd) = .error e at herror
  obtain ⟨path, rfl, htwice⟩ := duplicate_of_acceptAll hfiles herror
  rw [List.map_map] at htwice
  refine ⟨path, rfl, ?_⟩
  rw [filesOf_append]
  exact htwice

/-- If members cannot be taken in, one of them cannot be emitted, or a path comes for the second
time. -/
theorem Emits.error_of_foldlM {xs : List (Except GenerationError (List Emission))}
    {e : GenerationError} (h : Emits m log (xs ++ later) p.queue)
    (hfiles : p.files.Holds (filesOf log)) (herror : xs.foldlM Progress.take p = .error e) :
    .error e ∈ xs ∨ ∃ path log es, e = .duplicateFile path ∧ Clashes m path log es := by
  induction xs generalizing log p with
  | nil => cases herror
  | cons x xs ih =>
    rw [List.foldlM_cons] at herror
    cases x with
    | error failed =>
      cases herror
      exact .inl List.mem_cons_self
    | ok es =>
      have hnext := h.member
      rcases bind_eq_error.1 herror with herror | ⟨q, hq, herror⟩
      · obtain ⟨path, hpath, htwice⟩ := duplicate_of_take hfiles herror
        refine .inr ⟨path, log, es, hpath, ⟨_, _, hnext⟩, ?_, ?_⟩
        · exact h.proceeds.paths_eq ▸ hfiles.nodup
        · exact hnext.proceeds.paths_eq ▸ htwice
      · obtain ⟨hadded, hqueue⟩ := (take_eq_ok hfiles).1 hq
        exact (ih (hqueue ▸ hnext) hadded herror).imp_left (List.mem_cons_of_mem _)

/-- When members are taken in, they all have been emitted. -/
theorem Emits.exists_of_foldlM {xs : List (Except GenerationError (List Emission))}
    (h : Emits m log (xs ++ later) p.queue) (hfiles : p.files.Holds (filesOf log))
    (hok : xs.foldlM Progress.take p = .ok p') :
    ∃ ess : List (List Emission), xs = ess.map .ok ∧ Emits m (log ++ ess.flatten) later p'.queue ∧
      p'.files.Holds (filesOf (log ++ ess.flatten)) := by
  induction xs generalizing log p with
  | nil =>
    cases hok
    rw [← List.append_nil log] at h hfiles
    exact ⟨[], rfl, h, hfiles⟩
  | cons x xs ih =>
    rw [List.foldlM_cons] at hok
    obtain ⟨q, hq, hrest⟩ := bind_eq_ok.1 hok
    cases x with
    | error e => cases hq
    | ok es =>
      obtain ⟨hadded, hqueue⟩ := (take_eq_ok hfiles).1 hq
      obtain ⟨ess, rfl, hemits, hheld⟩ := ih (hqueue ▸ h.member) hadded hrest
      rw [List.append_assoc] at hemits hheld
      exact ⟨es :: ess, rfl, hemits, hheld⟩

theorem nodup_bundled (m : TypeMapper) : ((Utilities.bundled m).map SourceFile.path).Nodup := by
  have hne : "/version.txt" ≠ "/plugin.json" := by decide
  simp [Utilities.bundled, hne]

theorem classPath_notMem_bundled (name : QualifiedName) :
    classPath name ∉ (Utilities.bundled m).map SourceFile.path := by
  intro h
  simp only [Utilities.bundled, List.map_cons, List.map_nil, String.append_assoc] at h
  rcases List.mem_cons.1 h with h | h
  · exact classPath_ne_bundled name _ h
  · exact classPath_ne_bundled name _ (List.mem_singleton.1 h)

/-- The bundled files are in the way of no class. -/
theorem Emits.exists_addAll {queue : ClassQueue} (h : Emits m log later queue) {files : FileSet}
    (hfiles : files.Holds (filesOf log)) :
    ∃ files' : FileSet, files.addAll (Utilities.bundled m) = .ok files' := by
  obtain ⟨files', hheld⟩ : ∃ files' : FileSet, files'.Holds (filesOf log ++ Utilities.bundled m) := by
    refine FileSet.exists_holds ?_
    rw [List.map_append]
    refine List.nodup_append.2 ⟨hfiles.nodup, nodup_bundled m, ?_⟩
    rw [h.proceeds.paths_eq]
    rintro _ hpath _ hbundled rfl
    obtain ⟨c, -, rfl⟩ := List.mem_map.1 hpath
    exact classPath_notMem_bundled c.1 hbundled
  exact ⟨files', (FileSet.addAll_eq_ok hfiles).2 hheld⟩

/-- If the loop over the object classes ends since a path is taken, it comes for the second time. -/
theorem Emits.clashes_of_drain {limit : Nat} (h : Emits m log [] p.queue)
    (hfiles : p.files.Holds (filesOf log ++ Utilities.bundled m))
    (herror : drain m limit p = .error (.duplicateFile path)) :
    ∃ log es, Clashes m path log es := by
  induction limit generalizing log p with
  | zero =>
    rw [drain] at herror
    split at herror
    · cases herror
    · cases herror
  | succ limit ih =>
    rw [drain_succ] at herror
    split at herror
    · cases herror
    next hpending =>
    obtain ⟨r, rest, hpop⟩ := ClassQueue.exists_pop hpending
    have hturn : turn m p = objectClass m r >>= ({ p with queue := rest } : Progress).accept := by
      unfold turn
      rw [hpop]
      rfl
    rw [hturn, bind_assoc] at herror
    rcases bind_eq_error.1 herror with herror | ⟨e, he, herror⟩
    · cases allows_objectClass r _ herror
    have hnext := h.object hpop he
    rcases bind_eq_error.1 herror with herror | ⟨q, hq, herror⟩
    · obtain ⟨hpath, hmem⟩ := duplicate_of_add hfiles (bind_pure_eq_error.1 herror)
      cases hpath
      rw [((requestFrame m).finishes_object he).path_eq, List.map_append, List.mem_append,
        h.proceeds.paths_eq] at hmem
      have hmem := hmem.resolve_right (classPath_notMem_bundled r.name)
      refine ⟨log, [(r.name, e)], ⟨_, _, hnext⟩, ?_, ?_⟩
      · rw [← h.proceeds.paths_eq]
        exact hfiles.nodup.sublist ((List.sublist_append_left _ _).map _)
      · rw [((requestFrame m).finishes_object he).path_eq, List.map_append]
        exact duplicate_append hmem List.mem_cons_self
    · obtain ⟨hadded, hqueue⟩ := (accept_eq_ok (p := { p with queue := rest }) hfiles).1 hq
      refine ih (hqueue ▸ hnext) (hadded.perm ?_) herror
      rw [filesOf_append, List.append_assoc, List.append_assoc]
      exact List.perm_append_comm.append_left _

end Runs

theorem generate_of_make {package : Package} {settings : Settings}
    (hm : TypeMapper.make package settings = .ok m) :
    generate package settings =
      members m {} >>= fun p => drain m (classBound package) p >>= fun p => pure p.files := by
  unfold generate
  rw [hm]
  rfl

/-- Generation fails since a path is taken only where a path comes for the second time. -/
theorem exists_clashes {package : Package} {settings : Settings} {path : String}
    (h : generate package settings = .error (.duplicateFile path)) :
    ∃ m log es, TypeMapper.make package settings = .ok m ∧ Clashes m path log es := by
  cases hm : TypeMapper.make package settings with
  | error failed =>
    unfold generate at h
    rw [hm] at h
    cases languageOptions_of_make hm
    cases h
  | ok m =>
    rw [generate_of_make hm] at h
    suffices hclashes : ∃ log es, Clashes m path log es by
      obtain ⟨log, es, hclashes⟩ := hclashes
      exact ⟨m, log, es, rfl, hclashes⟩
    have hstart : Emits m [] (memberEmissions m ++ []) ({} : Progress).queue := by
      rw [List.append_nil]
      exact .start
    rw [members_eq, bind_assoc] at h
    rcases bind_eq_error.1 h with h | ⟨p, hp, h⟩
    · rcases hstart.error_of_foldlM FileSet.holds_empty h with herror | ⟨_, log, es, ⟨⟩, hclashes⟩
      · cases (isMember_of_mem herror).allows _ rfl
      · exact ⟨log, es, hclashes⟩
    obtain ⟨ess, -, hlog, hfiles⟩ := hstart.exists_of_foldlM FileSet.holds_empty hp
    obtain ⟨files, hadded⟩ := hlog.exists_addAll hfiles
    rw [hadded] at h
    change (drain m (classBound package) { p with files } >>= fun p => pure p.files) = _ at h
    have hheld := (FileSet.addAll_eq_ok hfiles).1 hadded
    exact hlog.clashes_of_drain (p := { p with files }) hheld (bind_pure_eq_error.1 h)

end Generation

end SchemaToJava.Java
