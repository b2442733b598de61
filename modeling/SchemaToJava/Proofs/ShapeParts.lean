import SchemaToJava.Proofs.ClosedShapes

/-!
What all classes and all annotations in a type are like. Types are put together from other types, so
it is enough to know this of the classes that the mapping starts from, of those that it wraps types
in, and of the two kinds of annotations that it makes.
-/
namespace SchemaToJava.Java

namespace TypeShape

/-- Each class in the type is as `B` says, and each annotation as `M` says. -/
def HasParts (B : QualifiedName → Prop) (M : String → Prop) (s : TypeShape) : Prop :=
  ∀ n : TypeShape, n.IsNode s → B n.base ∧ ∀ mark ∈ n.annotations, M mark

variable {B : QualifiedName → Prop} {M : String → Prop} {s t : TypeShape}

theorem hasParts_iff :
    s.HasParts B M ↔ (B s.base ∧ ∀ mark ∈ s.annotations, M mark) ∧
      ∀ p ∈ s.parameters, p.HasParts B M :=
  forall_isNode_iff (P := fun n => B n.base ∧ ∀ mark ∈ n.annotations, M mark)

namespace HasParts

theorem base (h : s.HasParts B M) : B s.base := (hasParts_iff.1 h).1.1

theorem marks (h : s.HasParts B M) : ∀ mark ∈ s.annotations, M mark := (hasParts_iff.1 h).1.2

theorem parameters (h : s.HasParts B M) : ∀ p ∈ s.parameters, p.HasParts B M :=
  (hasParts_iff.1 h).2

theorem ofParameters {base : QualifiedName} (hbase : B base) {ps : List TypeShape}
    (hps : ∀ p ∈ ps, p.HasParts B M) :
    ({ base, parameters := ps } : TypeShape).HasParts B M :=
  hasParts_iff.2 ⟨⟨hbase, by simp⟩, hps⟩

theorem ofClass {base : QualifiedName} (h : B base) : (TypeShape.ofClass base).HasParts B M :=
  ofParameters h (by simp)

/-- Other annotations may stand in front of a type. -/
theorem withAnnotations (h : s.HasParts B M) {marks : List String}
    (hmarks : ∀ mark ∈ marks, M mark) :
    ({ s with annotations := marks } : TypeShape).HasParts B M :=
  hasParts_iff.2 ⟨⟨h.base, hmarks⟩, h.parameters⟩

theorem annotated (h : s.HasParts B M) {mark : String} (hmark : M mark) :
    (s.annotated mark).HasParts B M := by
  unfold TypeShape.annotated
  split
  · exact h
  · refine h.withAnnotations fun other hother => ?_
    rcases List.mem_append.1 hother with hother | hother
    · exact h.marks other hother
    · exact List.mem_singleton.1 hother ▸ hmark

theorem annotatedAll (h : s.HasParts B M) {marks : List String} (hmarks : ∀ mark ∈ marks, M mark) :
    (marks.foldl TypeShape.annotated s).HasParts B M := by
  induction marks generalizing s with
  | nil => exact h
  | cons mark marks ih =>
    exact ih (h.annotated (hmarks mark List.mem_cons_self)) fun other hother =>
      hmarks other (List.mem_cons_of_mem mark hother)

theorem optional (h : s.HasParts B M) (hbase : B Library.optional) : s.optional.HasParts B M := by
  unfold TypeShape.optional
  split
  · exact h
  · exact ofParameters hbase (by simpa using h)

theorem output (h : s.HasParts B M) (hbase : B Library.output) : s.output.HasParts B M := by
  unfold TypeShape.output
  split
  · exact h
  · exact ofParameters hbase (by simpa using h)

/-- What a type wraps has its parts from there. -/
theorem unwrap (h : s.HasParts B M) {wrapper : QualifiedName} (hs : s.unwrap? wrapper = some t) :
    t.HasParts B M := by
  obtain ⟨-, hparameters⟩ := unwrap?_eq_some.1 hs
  exact h.parameters t (by simp [hparameters])

end HasParts

end TypeShape

namespace TypeMapper

open TypeShape

variable {m : TypeMapper} {B : QualifiedName → Prop} {M : String → Prop}

theorem shapeClosed_hasParts (hassigned : ∀ {base}, m.Assigns base → B base)
    (hgenerics : ∀ base ∈ Library.generics, B base) (hnullable : M nullableMark)
    (hcommented : ∀ {shapes : List TypeShape}, (∀ s ∈ shapes, s.HasParts B M) →
      M ("/* " ++ " | ".intercalate (shapes.map simpleText) ++ " */")) :
    m.ShapeClosed (HasParts B M) where
  ofClass h := .ofClass (hassigned h)
  commented h := by
    have hobject : TypeShape.object.HasParts B M := .ofClass (hassigned (.primitive .any))
    exact hobject.withAnnotations (List.forall_mem_singleton.2 (hcommented h))
  nullable h := h.annotated hnullable
  optional h := h.optional (hgenerics _ (by decide))
  output h := h.output (hgenerics _ (by decide))
  list h := .ofParameters (hgenerics _ (by decide)) (by simpa using h)
  map h := by
    have hstring : TypeShape.string.HasParts B M := .ofClass (hassigned (.primitive .string))
    exact .ofParameters (hgenerics _ (by decide)) (by simpa using ⟨hstring, h⟩)
  either hs ht := .ofParameters (hgenerics _ (by decide)) (by simpa using ⟨hs, ht⟩)
  unwrapped hs hinner := (hs.unwrap hinner).annotatedAll hs.marks

end TypeMapper

end SchemaToJava.Java
