import Mathlib.Data.List.Lattice
import Mathlib.Data.List.Pairwise
import SchemaToJava.Proofs.InputClasses

/-!
The files of the classes to write. Each class has one, which needs what the types of its fields
need. It stands among those of its resource behind the class of that, among those of the functions,
or among the requested classes; since no two files of a package have the same path, no class of a
resource, no enum and no other requested class has the name of one of these classes.
-/
namespace SchemaToJava.Java

open Package Outcome

variable {m : TypeMapper}

section Needed

/-- What a file needs, it goes on needing. -/
def needsFrame (m : TypeMapper) : DraftFrame m where
  rel d e := d.needed ⊆ e.needed
  refl _ := List.Subset.refl _
  trans := List.Subset.trans
  refer _ _ _ := List.Subset.refl _
  need _ _ _ _ _ := List.subset_append_left _ _

variable {o : ShapeOptions} {d e : Draft}

/-- Making a field asks for the classes of its type, and forgets none. -/
theorem needed_of_run_ofProperty {p : Property} {f : Field}
    (h : (Field.ofProperty m o p).run.run d = (.ok f, e)) :
    d.needed ⊆ e.needed ∧
      ∀ mapped, m.typeShape p.type o = .ok mapped → mapped.needed ⊆ e.needed := by
  unfold Field.ofProperty at h
  obtain ⟨s, d', hs, h⟩ := run_bind_eq_ok h
  cases h
  unfold Drafting.shape at hs
  split at hs
  · next mapped hmapped =>
    cases hs
    refine ⟨List.subset_append_left _ _, fun other hother => ?_⟩
    obtain rfl := Except.ok.inj (hmapped.symm.trans hother)
    exact List.subset_append_right _ _
  · cases hs

/-- Making the fields of a class asks for the classes of all their types. -/
theorem needed_of_run_fields {properties : List Property} {fields : List Field}
    (h : (properties.mapM (Field.ofProperty m o)).run.run d = (.ok fields, e)) :
    d.needed ⊆ e.needed ∧ ∀ p ∈ properties, ∀ mapped, m.typeShape p.type o = .ok mapped →
      mapped.needed ⊆ e.needed := by
  induction properties generalizing d fields with
  | nil =>
    cases h
    exact ⟨List.Subset.refl _, fun p hp => absurd hp List.not_mem_nil⟩
  | cons q rest ih =>
    rw [List.mapM_cons] at h
    obtain ⟨f, d₁, hf, h⟩ := run_bind_eq_ok h
    obtain ⟨others, d₂, hothers, h⟩ := run_bind_eq_ok h
    cases h
    obtain ⟨hfirst, hneeds⟩ := needed_of_run_ofProperty hf
    obtain ⟨hrest, hall⟩ := ih hothers
    refine ⟨List.Subset.trans hfirst hrest, fun p hp mapped hmapped => ?_⟩
    rcases List.mem_cons.1 hp with rfl | hp
    · exact List.Subset.trans (hneeds mapped hmapped) hrest
    · exact hall p hp mapped hmapped

/-- The file of a class to write needs what the types of its fields need. -/
theorem InputClass.needed_of_emit {c : InputClass} {emitted : Emitted}
    (hbase : c.base.isQualified = true) (h : c.emit m = .ok emitted) {p : Property}
    (hp : p ∈ c.properties) {mapped : Mapped}
    (hmapped : m.typeShape p.type c.shapeOptions = .ok mapped) :
    mapped.needed ⊆ emitted.needed := by
  obtain ⟨text, d, hrun, rfl⟩ := run_of_draftClass h
  obtain ⟨rest, htext, hrest⟩ := (needsFrame m).lenient.exists_inputText hbase
  rw [htext] at hrun
  obtain ⟨fields, d₁, hfields, hrun⟩ := run_bind_eq_ok hrun
  have hqualified := isQualified_of_fields ⟨_, congrArg Prod.fst hfields⟩
  have hgrows := (hrest fields hqualified d₁).1
  rw [hrun] at hgrows
  exact List.Subset.trans ((needed_of_run_fields hfields).2 p hp mapped hmapped) hgrows

end Needed

theorem IsInputClass.isQualified_base {requested : ClassRequest → Prop} {c : InputClass}
    (h : IsInputClass m requested c) : c.base.isQualified = true := by
  cases h with
  | @object r o =>
    change (if r.source.inputShape then Library.resourceArgs
      else Library.invokeArgs).isQualified = true
    split <;> rfl
  | _ => rfl

/-- A function with arguments has the classes of them. -/
theorem FunctionSignature.mem_argumentBodies {f : Package.Function} {s : FunctionSignature}
    (hs : FunctionsClass.signature m f = .ok s) {inputs : List Property}
    (hinputs : f.inputs = some inputs) :
    InputClass.body m {
      name := s.arguments
      properties := inputs.map Property.asInput
      base := Library.invokeArgs } ∈ s.bodies m ∧
    InputClass.body m {
      name := s.plainArguments
      properties := inputs.map Property.asInput
      base := Library.invokeArgs
      inputless := true } ∈ s.bodies m := by
  obtain rfl := FunctionsClass.function_of_signature hs
  simp [bodies, argumentBodies, hinputs]

theorem Generation.objectBody_of_input {r : ClassRequest} {o : ObjectType} (hdirection : r.direction = .input)
    (ho : m.package.object? r.source.token = some o) :
    objectBody m r = .ok ((r.inputClass o).body m) := by
  unfold objectBody
  rw [ho, hdirection]
  rfl

/-- A class to write is one of the classes of the package. -/
theorem IsInputClass.isClassBody {requested : ClassRequest → Prop} {bodies : List ClassBody}
    (hbodies : Generation.memberBodies m = .ok bodies) {c : InputClass}
    (hc : IsInputClass m requested c) : Generation.IsClassBody m requested (c.body m) := by
  cases hc with
  | @arguments r c hr hc =>
    obtain ⟨rfl, -, -⟩ := ResourceClass.ofResource_eq_ok hc
    exact .member (.resource hr hc (List.mem_cons_of_mem _ List.mem_cons_self))
  | @state r c name properties hr hc hname hproperties =>
    obtain ⟨rfl, -, -⟩ := ResourceClass.ofResource_eq_ok hc
    refine .member (.resource hr hc (List.mem_cons_of_mem _ (List.mem_cons_of_mem _ ?_)))
    simp [ResourceClass.stateBodies, hname, hproperties]
  | functionArguments hf hs hinputs =>
    have harguments := (FunctionSignature.mem_argumentBodies hs hinputs).1
    exact .member (Generation.isMemberBody_of_signature hbodies hf hs harguments)
  | plainArguments hf hs hinputs =>
    have harguments := (FunctionSignature.mem_argumentBodies hs hinputs).2
    exact .member (Generation.isMemberBody_of_signature hbodies hf hs harguments)
  | object hrequested hdirection ho =>
    exact .object hrequested (Generation.objectBody_of_input hdirection ho)

namespace Generation

/-- The files of the members of a package, by what they are made for. -/
structure Divides (m : TypeMapper) (members : List Emitted)
    (resources functions : List (List Emitted)) (enumFiles others : List Emitted) : Prop where
  members_eq : members = resources.flatten ++ functions.flatten ++ enumFiles ++ others
  resources : ∀ r ∈ Generation.resources m.package, ∃ es ∈ resources,
    ResourceClass.emit m r = .ok es
  functions : ∀ f ∈ m.package.functions, ∃ es ∈ functions, ∃ name group, f ∈ group ∧
    FunctionsClass.emit m name group = .ok es
  enums : ∀ e ∈ enums m.package, ∃ emitted ∈ enumFiles, EnumClass.emit m e = .ok emitted

/-- The files of the members come from the resources, the functions, the enums and the rest. -/
theorem exists_divides {members : List Emitted} (h : memberClasses m = .ok members) :
    ∃ resources functions enumFiles others,
      Divides m members resources functions enumFiles others := by
  unfold memberClasses at h
  obtain ⟨resources, hresources, h⟩ := bind_eq_ok.1 h
  obtain ⟨groups, hgroups, h⟩ := bind_eq_ok.1 h
  obtain ⟨functions, hfunctions, h⟩ := bind_eq_ok.1 h
  obtain ⟨enumFiles, henums, h⟩ := bind_eq_ok.1 h
  obtain ⟨config, -, h⟩ := bind_eq_ok.1 h
  obtain ⟨utilities, -, h⟩ := bind_eq_ok.1 h
  obtain rfl := pure_eq_ok.1 h
  refine ⟨resources, functions, enumFiles, config ++ [utilities], by simp, fun r hr => ?_,
    fun f hf => ?_, fun e he => ?_⟩
  · exact exists_of_mem_of_mapM hresources hr
  · obtain ⟨-, hplaced, hgroup⟩ := mem_group hgroups
    obtain ⟨name, hname⟩ := hplaced f hf
    obtain ⟨group, hentry, hmem⟩ := (hgroup name f).1 ⟨hf, hname⟩
    obtain ⟨es, hes, hemit⟩ := exists_of_mem_of_mapM hfunctions hentry
    exact ⟨es, hes, name, group, hmem, hemit⟩
  · exact exists_of_mem_of_mapM henums he

/-- Where the file of a class to write stands. -/
inductive IsPlaced (m : TypeMapper) (resources functions : List (List Emitted))
    (classes : List Rendered) (c : InputClass) (e : Emitted) : Prop
  | resource {main : Emitted} {rest : List Emitted} :
      main :: rest ∈ resources → e ∈ rest → IsPlaced m resources functions classes c e
  | function {es : List Emitted} :
      es ∈ functions → e ∈ es → IsPlaced m resources functions classes c e
  | object {r : ClassRequest} {o : ObjectType} : (r, e) ∈ classes → r.direction = .input →
      m.package.object? r.source.token = some o → c = r.inputClass o →
      IsPlaced m resources functions classes c e

/-- The class of a resource comes first among its files, those of its arguments and its state
after it. -/
theorem exists_of_emit_resource {r : Resource} {es : List Emitted}
    (h : ResourceClass.emit m r = .ok es) :
    ∃ c main rest, ResourceClass.ofResource m r = .ok c ∧ es = main :: rest ∧
      main.file.path = classPath c.name ∧
      (∃ e ∈ rest, (ResourceClass.argumentsClass c.arguments r.inputs).emit m = .ok e) ∧
      ∀ name properties, c.state = some name → r.state = some properties →
        ∃ e ∈ rest, (ResourceClass.argumentsClass name properties).emit m = .ok e := by
  obtain ⟨c, hc, hdrafts⟩ := ResourceClass.emit_eq_ok.1 h
  obtain ⟨rfl, -, -⟩ := ResourceClass.ofResource_eq_ok hc
  have hqualified := ResourceClass.isQualified_ofResource hc
  cases mapM_eq_ok.1 hdrafts with
  | @cons _ main _ rest hmain hrest =>
    have hfinishes := (requestFrame m).finishes_draft
      ((requestFrame m).keeps_resourceBodies hqualified _ List.mem_cons_self) hmain
    refine ⟨c, main, rest, hc, rfl, hfinishes.path_eq,
      exists_right_of_mem hrest List.mem_cons_self, fun name properties hname hproperties => ?_⟩
    have hstate : (ResourceClass.argumentsClass name properties).body m ∈ c.stateBodies m := by
      simp [ResourceClass.stateBodies, hname, hproperties]
    exact exists_right_of_mem hrest (List.mem_cons_of_mem _ hstate)

theorem exists_of_emit_functions {name : QualifiedName} {group : List Package.Function}
    {es : List Emitted} (h : FunctionsClass.emit m name group = .ok es) {f : Package.Function}
    (hf : f ∈ group) {s : FunctionSignature} (hs : FunctionsClass.signature m f = .ok s)
    {b : ClassBody} (hb : b ∈ s.bodies m) : ∃ e ∈ es, b.draft m.settings = .ok e := by
  obtain ⟨signatures, hsignatures, hdrafts⟩ := FunctionsClass.exists_bodies_of_emit h
  obtain ⟨found, hfound, hsame⟩ := exists_of_mem_of_mapM hsignatures hf
  obtain rfl := Except.ok.inj (hs.symm.trans hsame)
  exact exists_of_mem_of_mapM hdrafts
    (List.mem_cons_of_mem _ (List.mem_flatMap.2 ⟨s, hfound, hb⟩))

section Placed

variable {members : List Emitted} {resources functions : List (List Emitted)}
  {enumFiles others : List Emitted} {classes : List Rendered} {c : InputClass}

/-- The files of the arguments and the result of a function are among those of the functions. -/
theorem Divides.exists_draft (hdivides : Divides m members resources functions enumFiles others)
    {f : Package.Function} {s : FunctionSignature} (hf : f ∈ m.package.functions)
    (hs : FunctionsClass.signature m f = .ok s) {b : ClassBody} (hb : b ∈ s.bodies m) :
    ∃ es ∈ functions, ∃ e ∈ es, b.draft m.settings = .ok e := by
  obtain ⟨es, hes, name, group, hgroup, hemit⟩ := hdivides.functions f hf
  obtain ⟨e, he, hdraft⟩ := exists_of_emit_functions hemit hgroup hs hb
  exact ⟨es, hes, e, he, hdraft⟩

/-- A class to write has a file, in its place. -/
theorem exists_isPlaced (hdivides : Divides m members resources functions enumFiles others)
    (hclasses : Closure m members classes)
    (hc : IsInputClass m (fun r => ∃ e, (r, e) ∈ classes) c) :
    ∃ e, c.emit m = .ok e ∧ IsPlaced m resources functions classes c e := by
  cases hc with
  | @arguments r c hr hc =>
    obtain ⟨es, hes, hemit⟩ := hdivides.resources r hr
    obtain ⟨c', main, rest, hc', rfl, -, ⟨e, he, harguments⟩, -⟩ := exists_of_emit_resource hemit
    obtain rfl := Except.ok.inj (hc.symm.trans hc')
    exact ⟨e, harguments, .resource hes he⟩
  | @state r c name properties hr hc hname hproperties =>
    obtain ⟨es, hes, hemit⟩ := hdivides.resources r hr
    obtain ⟨c', main, rest, hc', rfl, -, -, hstate⟩ := exists_of_emit_resource hemit
    obtain rfl := Except.ok.inj (hc.symm.trans hc')
    obtain ⟨e, he, hstate⟩ := hstate name properties hname hproperties
    exact ⟨e, hstate, .resource hes he⟩
  | functionArguments hf hs hinputs =>
    have harguments := (FunctionSignature.mem_argumentBodies hs hinputs).1
    obtain ⟨es, hes, e, he, hdraft⟩ := hdivides.exists_draft hf hs harguments
    exact ⟨e, hdraft, .function hes he⟩
  | plainArguments hf hs hinputs =>
    have harguments := (FunctionSignature.mem_argumentBodies hs hinputs).2
    obtain ⟨es, hes, e, he, hdraft⟩ := hdivides.exists_draft hf hs harguments
    exact ⟨e, hdraft, .function hes he⟩
  | @object r o hrequested hdirection ho =>
    obtain ⟨e, he⟩ := hrequested
    refine ⟨e, ?_, .object he hdirection ho rfl⟩
    have hrendered := hclasses.rendered _ he
    rw [objectClass_eq, objectBody_of_input hdirection ho] at hrendered
    exact hrendered

end Placed

def Distinct (es : List Emitted) : Prop := (es.map fun e => e.file.path).Nodup

section Distinct

variable {es es' : List Emitted} {e e' : Emitted}

theorem Distinct.sublist (h : Distinct es') (hsub : es.Sublist es') : Distinct es :=
  List.Nodup.sublist (hsub.map _) h

theorem Distinct.eq (h : Distinct es) (he : e ∈ es) (he' : e' ∈ es)
    (hpath : e.file.path = e'.file.path) : e = e' := List.inj_on_of_nodup_map h he he' hpath

theorem Distinct.ne (h : Distinct (es ++ es')) (he : e ∈ es) (he' : e' ∈ es') :
    e.file.path ≠ e'.file.path := by
  unfold Distinct at h
  rw [List.map_append, List.nodup_append] at h
  exact h.2.2 _ (List.mem_map_of_mem he) _ (List.mem_map_of_mem he')

/-- The first file of a group is no later file of any group. -/
theorem Distinct.ne_of_flatten {groups : List (List Emitted)} (h : Distinct groups.flatten)
    {rest rest' : List Emitted} (hgroup : e :: rest ∈ groups) {main : Emitted}
    (hgroup' : main :: rest' ∈ groups) (he' : e' ∈ rest') : e.file.path ≠ e'.file.path := by
  intro hpath
  have hmem : e ∈ groups.flatten := List.mem_flatten_of_mem hgroup List.mem_cons_self
  have hmem' : e' ∈ groups.flatten :=
    List.mem_flatten_of_mem hgroup' (List.mem_cons_of_mem main he')
  obtain rfl := h.eq hmem hmem' hpath
  obtain ⟨hnodup, hdisjoint⟩ := List.nodup_flatten.1 (List.Nodup.of_map _ h)
  -- in one group the file would be there twice, and two groups share none
  by_cases hsame : e :: rest = main :: rest'
  · obtain ⟨rfl, rfl⟩ := List.cons.inj hsame
    exact (List.nodup_cons.1 (hnodup _ hgroup)).1 he'
  · have hsymm : Std.Symm (List.Disjoint (α := Emitted)) := ⟨fun _ _ => List.Disjoint.symm⟩
    exact hdisjoint.forall hgroup hgroup' hsame List.mem_cons_self (List.mem_cons_of_mem main he')

end Distinct

section Apart

variable {members : List Emitted} {resources functions : List (List Emitted)}
  {enumFiles others : List Emitted} {classes : List Rendered} {c : InputClass} {e : Emitted}

/-- The files of the members and of the requested classes have distinct paths. -/
theorem Divides.distinct (hdivides : Divides m members resources functions enumFiles others)
    (hnodup : ((allFiles m members classes).map SourceFile.path).Nodup) :
    Distinct (resources.flatten ++ functions.flatten ++ enumFiles ++ classes.map Prod.snd) := by
  rw [hdivides.members_eq] at hnodup
  generalize resources.flatten ++ functions.flatten ++ enumFiles = front at hnodup ⊢
  have hsub : ((front ++ classes.map Prod.snd).map Emitted.file).Sublist
      (allFiles m (front ++ others) classes) := by
    simp only [allFiles, List.map_append, List.map_map, List.append_assoc]
    refine List.Sublist.append_left ?_ _
    exact (List.sublist_append_right _ _).trans (List.sublist_append_right _ _)
  have hpaths := hnodup.sublist (hsub.map SourceFile.path)
  rwa [List.map_map] at hpaths

variable (hdistinct :
  Distinct (resources.flatten ++ functions.flatten ++ enumFiles ++ classes.map Prod.snd))
include hdistinct

/-- No enum has the path of a class to write. -/
theorem IsPlaced.ne_enum (h : IsPlaced m resources functions classes c e) {other : Emitted}
    (hother : other ∈ enumFiles) : e.file.path ≠ other.file.path := by
  have hmembers := hdistinct.sublist (List.sublist_append_left _ _)
  cases h with
  | resource hes he =>
    refine hmembers.ne (List.mem_append_left _ ?_) hother
    exact List.mem_flatten_of_mem hes (List.mem_cons_of_mem _ he)
  | function hes he =>
    exact hmembers.ne (List.mem_append_right _ (List.mem_flatten_of_mem hes he)) hother
  | object hr =>
    exact (hdistinct.ne (List.mem_append_right _ hother) (List.mem_map_of_mem hr)).symm

/-- No resource has the path of a class to write. -/
theorem IsPlaced.ne_resource (h : IsPlaced m resources functions classes c e) {main : Emitted}
    {rest : List Emitted} (hother : main :: rest ∈ resources) : main.file.path ≠ e.file.path := by
  have hmain : main ∈ resources.flatten := List.mem_flatten_of_mem hother List.mem_cons_self
  have hmembers := (hdistinct.sublist (List.sublist_append_left _ _)).sublist
    (List.sublist_append_left _ _)
  cases h with
  | resource hes he =>
    exact (hmembers.sublist (List.sublist_append_left _ _)).ne_of_flatten hother hes he
  | function hes he => exact hmembers.ne hmain (List.mem_flatten_of_mem hes he)
  | object hr =>
    exact hdistinct.ne (List.mem_append_left _ (List.mem_append_left _ hmain))
      (List.mem_map_of_mem hr)

/-- A requested class with the path of a class to write is that class. -/
theorem IsPlaced.eq_class (h : IsPlaced m resources functions classes c e) {other : Rendered}
    (hother : other ∈ classes) (hpath : other.2.file.path = e.file.path) :
    ∃ o, m.package.object? other.1.source.token = some o ∧ c = other.1.inputClass o := by
  have hmem : other.2 ∈ classes.map Prod.snd := List.mem_map_of_mem hother
  cases h with
  | resource hes he =>
    refine absurd hpath.symm (hdistinct.ne ?_ hmem)
    simp [List.mem_flatten_of_mem hes (List.mem_cons_of_mem _ he)]
  | function hes he =>
    refine absurd hpath.symm (hdistinct.ne ?_ hmem)
    simp [List.mem_flatten_of_mem hes he]
  | @object r o hr hdirection ho hc =>
    have hclasses := hdistinct.sublist (List.sublist_append_right _ _)
    unfold Distinct at hclasses
    rw [List.map_map] at hclasses
    obtain rfl := List.inj_on_of_nodup_map hclasses hother hr hpath
    exact ⟨o, ho, hc⟩

end Apart

end Generation

end SchemaToJava.Java
