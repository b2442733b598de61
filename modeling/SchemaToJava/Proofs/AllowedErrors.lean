import SchemaToJava.Proofs.BoundPackages
import SchemaToJava.Proofs.Draining

/-!
The errors with which generation can fail. If a discipline suits the types of all properties of a
package and allows the tokens of its members to be parsed, then what it allows a file to fail with
is all that the members of the package and the loop over its object classes can fail with.
-/
namespace SchemaToJava.Java

open Package Outcome

/-- There is no mapper only if the options of the package have the wrong form. -/
theorem languageOptions_of_make {package : Package} {settings : Settings} {e : GenerationError}
    (h : TypeMapper.make package settings = .error e) : e = .languageOptions := by
  have h : PackageOptions.ofPackage package = .error e := by
    have h := bind_pure_eq_error.1 h
    unfold PackageOptions.effective at h
    rcases bind_eq_error.1 h with h | ⟨options, -, h⟩
    · exact h
    · split at h <;> cases h
  unfold PackageOptions.ofPackage at h
  split at h
  · cases h
  · split at h
    · cases h
    · cases h
      rfl

namespace Generation

variable {package : Package}

/-- The properties of the members and of the object types are properties of the package. -/
theorem subset_of_resource {r : Resource} (hr : r ∈ resources package) :
    r.allProperties ⊆ package.allProperties := by
  intro p hp
  unfold Package.allProperties
  rcases List.mem_append.1 hr with hr | hr
  · simp [Option.mem_toList.1 hr, hp]
  · simp only [List.mem_append, List.mem_flatMap]
    exact .inl (.inr ⟨r, hr, hp⟩)

theorem subset_of_function {f : Package.Function} (hf : f ∈ package.functions) :
    f.allProperties ⊆ package.allProperties := by
  intro p hp
  simp only [Package.allProperties, List.mem_append, List.mem_flatMap]
  exact .inr ⟨f, hf, hp⟩

theorem subset_of_object {token : String} {o : ObjectType} (ho : package.object? token = some o) :
    o.properties ⊆ package.allProperties := by
  intro p hp
  have hmem : .object o ∈ package.types.values := by
    unfold object? at ho
    split at ho
    · next found hfound =>
      cases ho
      exact List.mem_map.2 ⟨_, Dictionary.get?_eq_some_iff.1 hfound, rfl⟩
    · cases ho
  simp only [Package.allProperties, List.mem_append, List.mem_flatMap]
  exact .inl (.inl (.inl (.inr ⟨_, hmem, hp⟩)))

end Generation

namespace Discipline

variable {m : TypeMapper}

/-- The types of the properties are admitted, as they are read and as they are written. -/
def Suits (D : Discipline m) (properties : List Property) : Prop :=
  ∀ p ∈ properties, D.admits p.type ∧ D.admits p.inputType

/-- The discipline allows for all properties and all members of the package. -/
structure Covers (D : Discipline m) : Prop where
  properties : D.Suits m.package.allProperties
  resources : ∀ r ∈ Generation.resources m.package, D.Allows (TypeMapper.parseToken r.token)
  functions : ∀ f ∈ m.package.functions, D.Allows (TypeMapper.parseToken f.token)
  enums : ∀ e ∈ Generation.enums m.package, D.Allows (TypeMapper.parseToken e.token)

variable {D : Discipline m}

section Suits

variable {ps qs : List Property}

theorem Suits.mono (h : D.Suits qs) (hsub : ps ⊆ qs) : D.Suits ps := fun p hp => h p (hsub hp)

theorem Suits.types (h : D.Suits ps) : D.AdmitsAll ps := fun p hp => (h p hp).1

theorem Suits.inputTypes (h : D.Suits ps) : D.AdmitsAll (ps.map Property.asInput) := by
  intro q hq
  obtain ⟨p, hp, rfl⟩ := List.mem_map.1 hq
  exact (h p hp).2

end Suits

theorem allows_input {c : InputClass} (hbase : c.base.isQualified = true)
    (hc : D.AdmitsAll c.properties) : D.Allows (c.emit m) :=
  allows_draftClass (D.keeps_inputText hbase hc)

theorem allows_output {c : OutputClass} (hc : D.AdmitsAll c.properties) : D.Allows (c.emit m) :=
  allows_draftClass (D.keeps_outputText hc)

theorem allows_enum {e : EnumType} (he : D.Allows (TypeMapper.parseToken e.token)) :
    D.Allows (EnumClass.emit m e) := by
  have hclass : D.Allows (m.enumClass e.token) := allows_bind he fun t _ => allows_ok _
  exact allows_bind hclass fun owner _ failed h =>
    D.allows_elementsText e _ failed
      (DraftFrame.error_of_draftClass (D.toDraftFrame.keeps_enumText owner e) h)

section Resources

variable {r : Resource}

theorem allows_ofResource (hr : D.Allows (TypeMapper.parseToken r.token)) :
    D.Allows (ResourceClass.ofResource m r) := by
  have hname : D.Allows (m.resourceClass r.token) := by
    refine allows_bind hr fun t _ => ?_
    split <;> exact allows_ok _
  have hmodule : D.Allows (m.modulePackage r.token) := allows_bind hr fun t _ => allows_ok _
  refine allows_bind hname fun name _ => allows_bind ?_ fun state _ => allows_ok _
  cases r.state with
  | none => exact allows_ok none
  | some properties =>
    rw [Option.mapM_some, map_eq_pure_bind]
    exact allows_bind (allows_bind hmodule fun module _ => allows_ok _) fun name _ => allows_ok _

/-- Rendering a resource only fails as the discipline admits for its token and its properties. -/
theorem allows_resource (hr : D.Allows (TypeMapper.parseToken r.token))
    (hproperties : D.Suits r.allProperties) : D.Allows (ResourceClass.emit m r) := by
  unfold ResourceClass.emit
  refine allows_bind (allows_ofResource hr) fun c hc => ?_
  obtain ⟨rfl, -, -⟩ := ResourceClass.ofResource_eq_ok hc
  have houtputs : D.Suits c.resource.properties :=
    hproperties.mono fun p hp => by simp [Resource.allProperties, hp]
  have hinputs : D.Suits c.resource.inputs :=
    hproperties.mono fun p hp => by simp [Resource.allProperties, hp]
  have htext := D.keeps_resourceText (ResourceClass.isQualified_ofResource hc) hr houtputs.types
    fun p hp => (hinputs p hp).2
  refine allows_bind (allows_draftClass htext) fun resource _ =>
    allows_bind (allows_input rfl hinputs.inputTypes) fun arguments _ => ?_
  split
  · next name properties _ hsome =>
    have hstate : D.Suits properties :=
      hproperties.mono fun p hp => by simp [Resource.allProperties, hsome, hp]
    exact allows_bind (allows_input rfl hstate.inputTypes) fun state _ => allows_ok _
  · exact allows_ok _

end Resources

section Functions

open FunctionsClass

/-- The files of a function's arguments and result fail for nothing else than its properties. -/
theorem allows_argumentFiles {s : FunctionSignature} (h : D.Suits s.function.allProperties) :
    D.Allows (argumentFiles m s) := by
  have houtputs : ∀ properties, s.function.outputs = some properties →
      D.Allows (({ name := s.result, properties } : OutputClass).emit m) := by
    intro properties hsome
    have hsuits : D.Suits properties :=
      h.mono fun p hp => by simp [Function.allProperties, hsome, hp]
    exact allows_output hsuits.types
  unfold argumentFiles
  dsimp only
  split
  · next inputs hsome =>
    have hinputs : D.Suits inputs := h.mono fun p hp => by simp [Function.allProperties, hsome, hp]
    refine allows_bind (allows_input rfl hinputs.inputTypes) fun first _ =>
      allows_bind (allows_input rfl hinputs.inputTypes) fun second _ =>
        allows_bind (allows_ok _) fun arguments _ => ?_
    split
    · next properties hproperties =>
      exact allows_bind (houtputs properties hproperties) fun file _ => allows_ok _
    · exact allows_ok _
  · refine allows_bind (allows_ok _) fun arguments _ => ?_
    split
    · next properties hproperties =>
      exact allows_bind (houtputs properties hproperties) fun file _ => allows_ok _
    · exact allows_ok _

variable {functions : List Package.Function}

/-- Rendering the functions of a module only fails as the discipline admits for each of them. -/
theorem allows_functions {name : QualifiedName}
    (htokens : ∀ f ∈ functions, D.Allows (TypeMapper.parseToken f.token))
    (hproperties : ∀ f ∈ functions, D.Suits f.allProperties) :
    D.Allows (FunctionsClass.emit m name functions) := by
  have hmember : ∀ f ∈ functions, D.Allows (signature m f >>= fun s =>
      argumentFiles m s >>= fun files => pure (s, files)) := by
    intro f hf
    have hsignature : D.Allows (signature m f) := allows_bind (htokens f hf) fun t _ => allows_ok _
    refine allows_bind hsignature fun s hs => ?_
    obtain ⟨t, -, hs⟩ := bind_eq_ok.1 hs
    obtain rfl := pure_eq_ok.1 hs
    exact allows_bind (allows_argumentFiles (hproperties f hf)) fun files _ => allows_ok _
  refine allows_bind (allows_mapM hmember) fun members hmembers => ?_
  have hqualified : ∀ s ∈ members.map Prod.fst, s.IsQualified := by
    intro s hs
    obtain ⟨member, hmem, rfl⟩ := List.mem_map.1 hs
    obtain ⟨f, -, hf⟩ := exists_of_mem_mapM hmembers hmem
    obtain ⟨s, hsignature, hf⟩ := bind_eq_ok.1 hf
    obtain ⟨files, -, hf⟩ := bind_eq_ok.1 hf
    obtain rfl := pure_eq_ok.1 hf
    exact isQualified_signature hsignature
  exact allows_bind (allows_draftClass (D.keeps_functionsText name hqualified))
    fun main _ => allows_ok _

theorem allows_group (htokens : ∀ f ∈ functions, D.Allows (TypeMapper.parseToken f.token)) :
    D.Allows (group m functions) := by
  have hplace : ∀ f ∈ functions, D.Allows (className m f.token >>= fun name => pure (name, f)) := by
    intro f hf
    exact allows_bind (allows_bind (htokens f hf) fun t _ => allows_ok _) fun name _ => allows_ok _
  exact allows_bind (allows_mapM hplace) fun placed _ => allows_ok _

end Functions

def AllowsDuplicates (D : Discipline m) : Prop := ∀ path, D.raises (.duplicateFile path)

section Files

variable (hpaths : D.AllowsDuplicates)
include hpaths

theorem allows_addFile (files : FileSet) (file : SourceFile) : D.Allows (files.add file) := by
  unfold FileSet.add
  split
  · exact allows_error (hpaths file.path)
  · exact allows_ok _

theorem allows_accept (p : Generation.Progress) (e : Emitted) : D.Allows (p.accept e) :=
  allows_bind (allows_addFile hpaths p.files e.file) fun _ _ => allows_ok _

theorem allows_acceptAll (p : Generation.Progress) (es : List Emitted) :
    D.Allows (p.acceptAll es) :=
  allows_foldlM (fun e _ p => allows_accept hpaths p e) p

end Files

namespace Covers

variable (hD : D.Covers)
include hD

theorem suits_resource {r : Resource} (hr : r ∈ Generation.resources m.package) :
    D.Suits r.allProperties := hD.properties.mono (Generation.subset_of_resource hr)

theorem suits_function {f : Package.Function} (hf : f ∈ m.package.functions) :
    D.Suits f.allProperties := hD.properties.mono (Generation.subset_of_function hf)

theorem suits_object {token : String} {o : ObjectType} (ho : m.package.object? token = some o) :
    D.Suits o.properties := hD.properties.mono (Generation.subset_of_object ho)

theorem allows_config : D.Allows (ConfigClass.emit m) := by
  refine allows_draftClass (D.keeps_configText fun p hp => ?_)
  exact hD.properties.types p (by simp [Package.allProperties, hp])

/-- Rendering a requested class only fails as the discipline admits for its object type. -/
theorem allows_object {r : ClassRequest} (hr : m.Serves r) :
    D.Allows (Generation.objectClass m r) := by
  obtain ⟨o, ho⟩ := Option.isSome_iff_exists.1 hr.isObject
  have hsuits := hD.suits_object ho
  unfold Generation.objectClass
  rw [ho]
  cases r.direction with
  | output => exact allows_output hsuits.types
  | input =>
    refine allows_input ?_ ?_
    · dsimp only
      split <;> rfl
    change D.AdmitsAll (o.propertiesFor r.source.inputShape)
    unfold ObjectType.propertiesFor
    split
    · exact hsuits.inputTypes
    · exact hsuits.types

variable (hpaths : D.AllowsDuplicates)
include hpaths

/-- The members of the package fail as the discipline allows. -/
theorem allows_members (p : Generation.Progress) : D.Allows (Generation.members m p) := by
  unfold Generation.members
  refine allows_bind (allows_foldlM (fun r hr p => ?_) p) fun p _ => ?_
  · exact allows_bind (allows_resource (hD.resources r hr) (hD.suits_resource hr))
      fun es _ => allows_acceptAll hpaths p es
  refine allows_bind (allows_group hD.functions) fun groups hgroups =>
    allows_bind (allows_foldlM (fun group hgroup p => ?_) p) fun p _ => ?_
  · have hfunctions : ∀ f ∈ group.2, f ∈ m.package.functions := fun f hf =>
      ((Generation.mem_group hgroups).2.2 group.1 f |>.2 ⟨group.2, hgroup, hf⟩).1
    exact allows_bind (allows_functions (fun f hf => hD.functions f (hfunctions f hf))
      fun f hf => hD.suits_function (hfunctions f hf)) fun es _ => allows_acceptAll hpaths p es
  refine allows_bind (allows_foldlM (fun e he p => ?_) p) fun p _ => ?_
  · exact allows_bind (allows_enum (hD.enums e he)) fun emitted _ => allows_accept hpaths p emitted
  have hrest (p : Generation.Progress) : D.Allows (Utilities.emit m >>= fun e =>
      p.accept e >>= fun p => p.files.addAll (Utilities.bundled m) >>= fun files =>
        pure { p with files := files }) := by
    refine allows_bind (allows_draftClass D.keeps_utilitiesText) fun e _ =>
      allows_bind (allows_accept hpaths p e) fun p _ => allows_bind ?_ fun files _ => allows_ok _
    exact allows_foldlM (fun file _ files => allows_addFile hpaths files file) p.files
  dsimp only
  split
  · exact allows_bind (allows_ok p) fun p _ => hrest p
  · exact allows_bind hD.allows_config fun e _ =>
      allows_bind (allows_accept hpaths p e) fun p _ => hrest p

section Loop

variable {members : List Emitted} {done : List Generation.Rendered} {p : Generation.Progress}

/-- As long as something is pending, a turn of the loop fails as the discipline allows. -/
theorem allows_turn (h : Generation.Tracks m members done p)
    (hpending : p.queue.isEmpty ≠ true) : D.Allows (Generation.turn m p) := by
  obtain ⟨r, queue, hpop⟩ := ClassQueue.exists_pop hpending
  have htaken := (ClassQueue.takes_pop hpop).pending.mem_iff.2 List.mem_cons_self
  unfold Generation.turn
  rw [hpop]
  change D.Allows (Generation.objectClass m r >>= ({ p with queue } : Generation.Progress).accept)
  exact allows_bind (hD.allows_object (h.pendingServes r htaken)) fun e _ => allows_accept hpaths _ e

/-- The loop over the object classes fails as the discipline allows. -/
theorem allows_loops (h : Generation.Tracks m members done p) {turns : Nat}
    {outcome : Except GenerationError Generation.Progress}
    (hloops : Generation.Loops m p turns outcome) : D.Allows outcome := by
  induction hloops generalizing done with
  | ended => exact allows_ok _
  | failed hpending hturn =>
    rw [← hturn]
    exact hD.allows_turn hpaths h hpending
  | turned _ hturn _ ih =>
    obtain ⟨c, hstep⟩ := Generation.exists_step_of_turn hturn
    exact ih (h.step hstep)

end Loop

/-- Generation fails as the discipline of its mapper allows, once there is a mapper. -/
theorem allows_generate {settings : Settings} (hm : TypeMapper.make m.package settings = .ok m) :
    D.Allows (generate m.package settings) := by
  unfold generate
  rw [hm]
  change D.Allows (Generation.members m {} >>= fun p =>
    Generation.drain m (Generation.classBound m.package) p >>= fun p => pure p.files)
  refine allows_bind (hD.allows_members hpaths {}) fun p hp => ?_
  obtain ⟨members, hmembers, -⟩ := Generation.members_eq_ok.1 hp
  have htracks := Generation.tracks_members hmembers hp
  have hleft : 3 * Generation.objectCount m.package ≤
      ([] : List Generation.Rendered).length + 3 * Generation.objectCount m.package := by simp
  obtain ⟨turns, outcome, hloops, hturns⟩ := htracks.exists_loops hleft
  rw [hloops.drain_eq (Nat.le_trans hturns (Generation.objectCount_le m.package))]
  exact allows_bind (hD.allows_loops hpaths htracks hloops) fun last _ => allows_ok _

end Covers

end Discipline

end SchemaToJava.Java
