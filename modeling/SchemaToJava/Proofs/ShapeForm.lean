import SchemaToJava.Java.TypeMapper
import SchemaToJava.Proofs.Outcomes
import SchemaToJava.Proofs.TypeNodes

/-!
The form of the Java types that types are mapped to. The generic classes of the runtime have their
parameters, optional types and types of later values are not nested in themselves, and the two
alternatives of a type can be told apart in writing. Only a resource could have a class that is
taken for a generic one; object types and enums live in packages of their own.
-/
namespace SchemaToJava.Java

open Package

/-- The classes that are written with parameters. -/
def Library.generics : List QualifiedName :=
  [Library.optional, Library.output, Library.list, Library.map, Library.either]

namespace TypeShape

inductive IsNode (n : TypeShape) : TypeShape → Prop
  | root : IsNode n n
  | parameter {s p : TypeShape} : p ∈ s.parameters → IsNode n p → IsNode n s

theorem isNode_iff {n s : TypeShape} : n.IsNode s ↔ n = s ∨ ∃ p ∈ s.parameters, n.IsNode p := by
  constructor
  · rintro (_ | ⟨hp, h⟩)
    · exact .inl rfl
    · exact .inr ⟨_, hp, h⟩
  · rintro (rfl | ⟨p, hp, h⟩)
    · exact .root
    · exact .parameter hp h

def ForallBases (P : QualifiedName → Prop) (s : TypeShape) : Prop :=
  ∀ n : TypeShape, n.IsNode s → P n.base

/-- No value in the type comes later. -/
def IsKnown (s : TypeShape) : Prop := ∀ n : TypeShape, n.IsNode s → n.base ≠ Library.output

/-- The parameters of a type fit its class. -/
structure Fits (s : TypeShape) : Prop where
  optional : s.base = Library.optional → ∃ p, s.parameters = [p] ∧ p.base ≠ Library.optional
  output : s.base = Library.output → ∃ p, s.parameters = [p] ∧ p.IsKnown
  list : s.base = Library.list → ∃ p, s.parameters = [p]
  map : s.base = Library.map → ∃ p, s.parameters = [string, p]
  either : s.base = Library.either →
    ∃ left right, s.parameters = [left, right] ∧ left.qualifiedText ≠ right.qualifiedText

/-- Every node of the type has parameters that fit its class. -/
def WellFormed (s : TypeShape) : Prop := ∀ n : TypeShape, n.IsNode s → n.Fits

/-- A property of all nodes holds of the whole and of the nodes of its parameters. -/
theorem forall_isNode_iff {P : TypeShape → Prop} {s : TypeShape} :
    (∀ n : TypeShape, n.IsNode s → P n) ↔
      P s ∧ ∀ p ∈ s.parameters, ∀ n : TypeShape, n.IsNode p → P n := by
  constructor
  · intro h
    exact ⟨h s .root, fun p hp n hn => h n (.parameter hp hn)⟩
  · rintro ⟨hs, hps⟩ n hn
    rcases isNode_iff.1 hn with rfl | ⟨p, hp, hn⟩
    · exact hs
    · exact hps p hp n hn

theorem wellFormed_iff {s : TypeShape} :
    s.WellFormed ↔ s.Fits ∧ ∀ p ∈ s.parameters, p.WellFormed := forall_isNode_iff

theorem forallBases_iff {P : QualifiedName → Prop} {s : TypeShape} :
    s.ForallBases P ↔ P s.base ∧ ∀ p ∈ s.parameters, p.ForallBases P := forall_isNode_iff

theorem is_eq_true_iff {s : TypeShape} {base : QualifiedName} :
    s.is base = true ↔ s.base = base := by
  simp [is]

theorem unwrap?_eq_some {s inner : TypeShape} {wrapper : QualifiedName} :
    s.unwrap? wrapper = some inner ↔ s.base = wrapper ∧ s.parameters = [inner] := by
  unfold unwrap?
  split
  · next p hparameters =>
    rw [Option.ite_some_none_eq_some, is_eq_true_iff, hparameters, List.singleton_inj]
  · next hnone => simpa using fun _ => hnone inner

theorem unwrap?_eq_none {s : TypeShape} {wrapper : QualifiedName} (h : s.base ≠ wrapper) :
    s.unwrap? wrapper = none :=
  Option.eq_none_iff_forall_ne_some.2 fun _ hinner => h (unwrap?_eq_some.1 hinner).1

theorem either?_eq_some {s left right : TypeShape} :
    s.either? = some (left, right) ↔ s.base = Library.either ∧ s.parameters = [left, right] := by
  unfold either?
  split
  · next first second hparameters =>
    rw [Option.ite_some_none_eq_some, is_eq_true_iff, hparameters]
    simp
  · next hnone => simpa using fun _ => hnone left right

theorem ne_of_notMem_generics {base : QualifiedName} (h : base ∉ Library.generics) :
    base ≠ Library.optional ∧ base ≠ Library.output ∧ base ≠ Library.list ∧
      base ≠ Library.map ∧ base ≠ Library.either := by
  simpa [Library.generics] using h

theorem wellFormed_ofClass {base : QualifiedName} (h : base ∉ Library.generics) :
    (ofClass base).WellFormed := by
  obtain ⟨hoptional, houtput, hlist, hmap, heither⟩ := ne_of_notMem_generics h
  refine wellFormed_iff.2 ⟨⟨?_, ?_, ?_, ?_, ?_⟩, by simp [ofClass]⟩
  · exact fun hb => absurd hb hoptional
  · exact fun hb => absurd hb houtput
  · exact fun hb => absurd hb hlist
  · exact fun hb => absurd hb hmap
  · exact fun hb => absurd hb heither

/-- Annotations have no part in the form of a type. -/
theorem base_annotated (s : TypeShape) (mark : String) : (s.annotated mark).base = s.base := by
  unfold annotated
  split <;> rfl

theorem parameters_annotated (s : TypeShape) (mark : String) :
    (s.annotated mark).parameters = s.parameters := by
  unfold annotated
  split <;> rfl

theorem Fits.congr {s t : TypeShape} (h : s.Fits) (hbase : t.base = s.base)
    (hparameters : t.parameters = s.parameters) : t.Fits := by
  constructor <;> rw [hbase, hparameters]
  · exact h.optional
  · exact h.output
  · exact h.list
  · exact h.map
  · exact h.either

theorem wellFormed_annotated {s : TypeShape} (h : s.WellFormed) (mark : String) :
    (s.annotated mark).WellFormed := by
  obtain ⟨hfits, hps⟩ := wellFormed_iff.1 h
  refine wellFormed_iff.2 ⟨hfits.congr (base_annotated s mark) (parameters_annotated s mark), ?_⟩
  rwa [parameters_annotated]

theorem wellFormed_list {s : TypeShape} (h : s.WellFormed) : (list s).WellFormed := by
  refine wellFormed_iff.2 ⟨⟨?_, ?_, ?_, ?_, ?_⟩, by simpa [list] using h⟩
  · exact fun hb => absurd hb (by decide : Library.list ≠ Library.optional)
  · exact fun hb => absurd hb (by decide : Library.list ≠ Library.output)
  · exact fun _ => ⟨s, rfl⟩
  · exact fun hb => absurd hb (by decide : Library.list ≠ Library.map)
  · exact fun hb => absurd hb (by decide : Library.list ≠ Library.either)

theorem wellFormed_string : string.WellFormed := wellFormed_ofClass (by decide)

theorem wellFormed_map {s : TypeShape} (h : s.WellFormed) : (map s).WellFormed := by
  refine wellFormed_iff.2 ⟨⟨?_, ?_, ?_, ?_, ?_⟩, by simpa [map] using ⟨wellFormed_string, h⟩⟩
  · exact fun hb => absurd hb (by decide : Library.map ≠ Library.optional)
  · exact fun hb => absurd hb (by decide : Library.map ≠ Library.output)
  · exact fun hb => absurd hb (by decide : Library.map ≠ Library.list)
  · exact fun _ => ⟨s, rfl⟩
  · exact fun hb => absurd hb (by decide : Library.map ≠ Library.either)

theorem wellFormed_either {left right : TypeShape} (hl : left.WellFormed) (hr : right.WellFormed)
    (hne : left.qualifiedText ≠ right.qualifiedText) : (either left right).WellFormed := by
  refine wellFormed_iff.2 ⟨⟨?_, ?_, ?_, ?_, ?_⟩, by simpa [either] using ⟨hl, hr⟩⟩
  · exact fun hb => absurd hb (by decide : Library.either ≠ Library.optional)
  · exact fun hb => absurd hb (by decide : Library.either ≠ Library.output)
  · exact fun hb => absurd hb (by decide : Library.either ≠ Library.list)
  · exact fun hb => absurd hb (by decide : Library.either ≠ Library.map)
  · exact fun _ => ⟨left, right, rfl, hne⟩

theorem wellFormed_optional {s : TypeShape} (h : s.WellFormed) : s.optional.WellFormed := by
  unfold optional
  split
  · exact h
  · next hs =>
    rw [is_eq_true_iff] at hs
    refine wellFormed_iff.2 ⟨⟨?_, ?_, ?_, ?_, ?_⟩, by simpa using h⟩
    · exact fun _ => ⟨s, rfl, hs⟩
    · exact fun hb => absurd hb (by decide : Library.optional ≠ Library.output)
    · exact fun hb => absurd hb (by decide : Library.optional ≠ Library.list)
    · exact fun hb => absurd hb (by decide : Library.optional ≠ Library.map)
    · exact fun hb => absurd hb (by decide : Library.optional ≠ Library.either)

theorem wellFormed_output {s : TypeShape} (h : s.WellFormed) (hknown : s.IsKnown) :
    s.output.WellFormed := by
  unfold output
  split
  · exact h
  · refine wellFormed_iff.2 ⟨⟨?_, ?_, ?_, ?_, ?_⟩, by simpa using h⟩
    · exact fun hb => absurd hb (by decide : Library.output ≠ Library.optional)
    · exact fun _ => ⟨s, rfl, hknown⟩
    · exact fun hb => absurd hb (by decide : Library.output ≠ Library.list)
    · exact fun hb => absurd hb (by decide : Library.output ≠ Library.map)
    · exact fun hb => absurd hb (by decide : Library.output ≠ Library.either)

section ForallBases

variable {P : QualifiedName → Prop} {s : TypeShape}

theorem forallBases_ofClass {base : QualifiedName} (h : P base) : (ofClass base).ForallBases P :=
  forallBases_iff.2 ⟨h, by simp [ofClass]⟩

theorem forallBases_annotated (h : s.ForallBases P) (mark : String) :
    (s.annotated mark).ForallBases P := by
  rw [forallBases_iff, base_annotated, parameters_annotated]
  exact forallBases_iff.1 h

theorem forallBases_annotatedAll (h : s.ForallBases P) (marks : List String) :
    (marks.foldl annotated s).ForallBases P := by
  induction marks generalizing s with
  | nil => exact h
  | cons mark marks ih => exact ih (forallBases_annotated h mark)

theorem forallBases_list (hlist : P Library.list) (h : s.ForallBases P) :
    (list s).ForallBases P :=
  forallBases_iff.2 ⟨hlist, by simpa [list] using h⟩

theorem forallBases_map (hmap : P Library.map) (hstring : P Library.string)
    (h : s.ForallBases P) : (map s).ForallBases P :=
  forallBases_iff.2 ⟨hmap, by simpa [map] using ⟨forallBases_ofClass hstring, h⟩⟩

theorem forallBases_either {t : TypeShape} (heither : P Library.either) (hs : s.ForallBases P)
    (ht : t.ForallBases P) : (either s t).ForallBases P :=
  forallBases_iff.2 ⟨heither, by simpa [either] using ⟨hs, ht⟩⟩

theorem forallBases_optional (hoptional : P Library.optional) (h : s.ForallBases P) :
    s.optional.ForallBases P := by
  unfold optional
  split
  · exact h
  · exact forallBases_iff.2 ⟨hoptional, by simpa using h⟩

theorem forallBases_output (houtput : P Library.output) (h : s.ForallBases P) :
    s.output.ForallBases P := by
  unfold output
  split
  · exact h
  · exact forallBases_iff.2 ⟨houtput, by simpa using h⟩

end ForallBases

end TypeShape

end SchemaToJava.Java
