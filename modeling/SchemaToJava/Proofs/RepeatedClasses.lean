import SchemaToJava.Proofs.EmittedNames

/-!
What texts and paths say about names. A dotted text is that of one name, and a path that of one
class, as long as no part of a name is empty or has a separator in it. So generation fails for a
path that is taken only where some class is emitted twice. Only a package in the options that has a
slash in it can be the reason that two classes share a file.
-/
namespace SchemaToJava.Java

open Package Outcome Text

theorem TypeMapper.Places.segments_ne {m : TypeMapper} {name : QualifiedName} (h : m.Places name) :
    name.segments ≠ [""] := by
  obtain ⟨place, base, hplace, -, rfl⟩ := h
  obtain ⟨s, hs, hne⟩ := hplace.isVisible.exists_segment base
  intro hempty
  rw [hempty] at hs
  exact hne (List.mem_singleton.1 hs)

theorem TypeMapper.Places.isUnbroken {m : TypeMapper} {name : QualifiedName} (h : m.Places name)
    (hm : m.HasPlainNames) : name.IsUnbroken := by
  obtain ⟨place, base, hplace, hbase, rfl⟩ := h
  exact (hplace.isUnbroken hm).append hbase

/-- The classes that are made where the options give plain packages have files of their own. -/
theorem TypeMapper.Places.filePath_inj {m : TypeMapper} (hm : m.HasPlainNames) {a b : QualifiedName}
    (ha : m.Places a) (hb : m.Places b) (h : a.filePath = b.filePath) : a = b := by
  have hslash {name : QualifiedName} (hname : m.Places name) :
      ∀ part ∈ name.parts, '/' ∉ part.toList := by
    have hunbroken := hname.isUnbroken hm
    intro part hpart hmem
    rcases List.mem_append.1 hpart with hpart | hpart
    · exact hunbroken.segments part hpart '/' hmem (by decide)
    · rw [List.mem_singleton.1 hpart] at hmem
      exact hunbroken.base '/' hmem (by decide)
  exact QualifiedName.filePath_inj ha.segments_ne hb.segments_ne (hslash ha) (hslash hb) h

namespace Generation

theorem filePath_eq_of_classPath_eq {a b : QualifiedName} (h : classPath a = classPath b) :
    a.filePath = b.filePath :=
  (String.append_right_inj _).1 h

def IsRepeated (path : String) (log : List Emission) : Prop :=
  ∃ name, classPath name = path ∧ List.Duplicate name (log.map Prod.fst)

/-- If the path of a class comes twice, so does the class, if no other class has the path. -/
theorem isRepeated_of_duplicate {path : String} {log : List Emission}
    (h : List.Duplicate path (log.map Emission.path))
    (hinj : ∀ c ∈ log, ∀ d ∈ log, c.path = path → d.path = path → c.1 = d.1) :
    IsRepeated path log := by
  obtain ⟨twice, hsublist, htwice⟩ := List.sublist_map_iff.1 (List.duplicate_iff_sublist.1 h)
  obtain ⟨c, rest, rfl, hc, hrest⟩ := List.map_eq_cons_iff.1 htwice.symm
  obtain ⟨d, nothing, rfl, hd, hnothing⟩ := List.map_eq_cons_iff.1 hrest
  obtain rfl := List.map_eq_nil_iff.1 hnothing
  have hcd : c.1 = d.1 :=
    hinj c (hsublist.subset (by simp)) d (hsublist.subset (by simp)) hc hd
  refine ⟨c.1, hc, List.duplicate_iff_sublist.2 ?_⟩
  have hnames := hsublist.map Prod.fst
  rwa [List.map_cons, List.map_singleton, ← hcd] at hnames

/-- A run up to the step in which a path comes for the second time, and a class with it: if the
names of all emitted classes of that path have plain parts, and if the options give plain packages. -/
structure RepeatsClass (m : TypeMapper) (path : String) (log es : List Emission) : Prop
    extends Clashes m path log es where
  files : ∀ c ∈ log ++ es, c.2.file.path = classPath c.1
  plain : (∀ c ∈ log ++ es, classPath c.1 = path → c.1.HasPlainParts) → IsRepeated path (log ++ es)
  options : m.HasPlainNames → IsRepeated path (log ++ es)

theorem Clashes.repeatsClass {m : TypeMapper} {path : String} {log es : List Emission}
    (h : Clashes m path log es) : RepeatsClass m path log es := by
  obtain ⟨later, queue, hemits⟩ := h.emits
  have hproceeds := hemits.proceeds
  refine ⟨h, fun c hc => (hproceeds.emissions c hc).path_eq, fun hplain => ?_, fun hm => ?_⟩
  · refine isRepeated_of_duplicate h.twice fun c hc d hd hcpath hdpath => ?_
    exact (hplain c hc hcpath).filePath_inj (hplain d hd hdpath)
      (filePath_eq_of_classPath_eq (hcpath.trans hdpath.symm))
  · refine isRepeated_of_duplicate h.twice fun c hc d hd hcpath hdpath => ?_
    exact (hproceeds.emissions c hc).places.filePath_inj hm (hproceeds.emissions d hd).places
      (filePath_eq_of_classPath_eq (hcpath.trans hdpath.symm))

/-- Dotted texts and paths identify names: a text is read without loss, a name without dots in its
parts is read back, and names with plain parts lie in different files. So a path is taken only where
a class is emitted for the second time. -/
structure IdentifyNames : Prop where
  dotted_ofDotted : ∀ s, (QualifiedName.ofDotted s).dotted = s
  ofDotted_dotted : ∀ name : QualifiedName, '.' ∉ name.base.toList →
    (∀ s ∈ name.segments, '.' ∉ s.toList) → QualifiedName.ofDotted name.dotted = name
  filePath_inj : ∀ a b : QualifiedName, a.HasPlainParts → b.HasPlainParts →
    a.filePath = b.filePath → a = b
  duplicate : ∀ package settings path, generate package settings = .error (.duplicateFile path) →
    ∃ m log es, TypeMapper.make package settings = .ok m ∧ RepeatsClass m path log es

/-- Neither texts nor paths mix classes up. -/
theorem identifyNames : IdentifyNames where
  dotted_ofDotted := QualifiedName.dotted_ofDotted
  ofDotted_dotted _ := QualifiedName.ofDotted_dotted
  filePath_inj _ _ := QualifiedName.HasPlainParts.filePath_inj
  duplicate _ _ _ h := by
    obtain ⟨m, log, es, hm, hclashes⟩ := exists_clashes h
    exact ⟨m, log, es, hm, hclashes.repeatsClass⟩

/-- The path that is taken, where generation fails for that reason. -/
def takenPath (package : Package) (settings : Settings) : Option String :=
  match generate package settings with
  | .error (.duplicateFile path) => some path
  | _ => none

theorem generate_of_takenPath {package : Package} {settings : Settings} {path : String}
    (h : takenPath package settings = some path) :
    generate package settings = .error (.duplicateFile path) := by
  unfold takenPath at h
  split at h
  · next taken =>
    cases h
    exact taken
  · cases h

/-- A package with two enums whose tokens differ in the case of a letter only. -/
theorem identifyNames_of_case :
    let e : EnumType := ⟨"p:m:E", none, .string, []⟩
    let package : Package :=
      { name := "p"
        types := .ofList [("p:m:E", .enum e), ("p:m:e", .enum { e with token := "p:m:e" })] }
    let path := "src/main/java/com/pulumi/p/m/enums/E.java"
    generate package {} = .error (.duplicateFile path) ∧
      ∃ m log es, TypeMapper.make package {} = .ok m ∧ RepeatsClass m path log es ∧
        IsRepeated path (log ++ es) := by
  intro e package path
  have htaken : takenPath package {} = some path := by decide +kernel
  have h := generate_of_takenPath htaken
  obtain ⟨m, log, es, hm, hrepeats⟩ := identifyNames.duplicate package {} path h
  have hmake : TypeMapper.make package {} = .ok ⟨package, {}, {}⟩ := rfl
  have hplain : m.HasPlainNames := by
    obtain rfl := Except.ok.inj (hmake.symm.trans hm)
    exact ⟨⟨by decide, fun h => by cases h⟩, fun h => by cases h⟩
  exact ⟨h, m, log, es, hm, hrepeats, hrepeats.options hplain⟩

end Generation

end SchemaToJava.Java
