import Mathlib.Tactic.Common
import SchemaToJava.Proofs.DottedNames

/-!
Paths of names. The path of a file is that of the joined parts of a name, as its dotted text is, so
names whose parts have no slash lie in different files. Nor does reading a dotted text lose anything.
-/
namespace SchemaToJava.Java.QualifiedName

theorem parts_ofDotted (s : String) : (ofDotted s).parts = Text.piecesOf '.' s :=
  List.dropLast_concat_getLast (Text.piecesOf_ne_nil '.' s)

/-- A dotted text is that of the name that is read from it. -/
theorem dotted_ofDotted (s : String) : (ofDotted s).dotted = s := by
  rw [dotted_eq, parts_ofDotted]
  exact Text.intercalate_piecesOf '.' s

theorem isEmpty_folder_iff {segments : List String} :
    ("/".intercalate segments).isEmpty = true ↔ segments = [] ∨ segments = [""] := by
  rw [String.isEmpty_iff, ← String.toList_eq_nil_iff]
  match segments with
  | [] => simp
  | [s] => simp
  | s :: t :: rest => simp [String.intercalate_cons_cons]

/-- The path of the file of a class: its parts with slashes between them. Only a package that
consists of one empty segment leaves no trace in it. -/
theorem filePath_eq {name : QualifiedName} (h : name.segments ≠ [""]) :
    name.filePath = "/".intercalate name.parts ++ ".java" := by
  unfold filePath parts
  dsimp only
  split
  · next hempty =>
    have hnil : name.segments = [] := (isEmpty_folder_iff.1 hempty).resolve_right h
    simp [hnil]
  · next hfolder =>
    have hne : name.segments ≠ [] := fun hnil => hfolder (isEmpty_folder_iff.2 (.inl hnil))
    rw [String.intercalate_append_of_ne_nil hne (List.cons_ne_nil _ _),
      String.intercalate_singleton]

/-- Names whose parts have no slash have different paths. -/
theorem filePath_inj {a b : QualifiedName} (ha : a.segments ≠ [""]) (hb : b.segments ≠ [""])
    (hslashA : ∀ part ∈ a.parts, '/' ∉ part.toList) (hslashB : ∀ part ∈ b.parts, '/' ∉ part.toList)
    (h : a.filePath = b.filePath) : a = b := by
  have hread {name : QualifiedName} (hslash : ∀ part ∈ name.parts, '/' ∉ part.toList) :
      Text.piecesOf '/' ("/".intercalate name.parts) = name.parts :=
    Text.piecesOf_intercalate name.parts_ne_nil hslash
  rw [filePath_eq ha, filePath_eq hb, String.append_left_inj] at h
  exact parts_inj (by rw [← hread hslashA, h, hread hslashB])

/-- No part of the name is empty, or has a dot or a slash. -/
def HasPlainParts (name : QualifiedName) : Prop :=
  ∀ part ∈ name.parts, part ≠ "" ∧ '.' ∉ part.toList ∧ '/' ∉ part.toList

instance (name : QualifiedName) : Decidable name.HasPlainParts :=
  List.decidableBAll _ name.parts

theorem HasPlainParts.filePath_inj {a b : QualifiedName} (ha : a.HasPlainParts)
    (hb : b.HasPlainParts) (h : a.filePath = b.filePath) : a = b := by
  have hpackage {name : QualifiedName} (hname : name.HasPlainParts) : name.segments ≠ [""] := by
    intro hsegments
    have hmem : "" ∈ name.parts := by simp [parts, hsegments]
    exact (hname "" hmem).1 rfl
  exact QualifiedName.filePath_inj (hpackage ha) (hpackage hb) (fun part hpart => (ha part hpart).2.2)
    (fun part hpart => (hb part hpart).2.2) h

end SchemaToJava.Java.QualifiedName
