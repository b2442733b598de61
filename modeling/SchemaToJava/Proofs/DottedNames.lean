import Mathlib.Tactic.Common
import SchemaToJava.Java.Name

/-!
Dotted names. Cutting a text at a separator and joining pieces with it undo each other, the latter
for pieces without the separator. The dotted text of a name is that of its joined parts; cutting it
at its dots gives the parts back when none of them has a dot, so the text determines the name.
-/
namespace SchemaToJava

namespace Text

theorem pieces_of_notMem {sep : Char} {cs : List Char} (h : sep ∉ cs) : pieces sep cs = [cs] := by
  induction cs with
  | nil => rfl
  | cons c rest ih =>
    simp only [List.mem_cons, not_or] at h
    rw [pieces, if_neg (Ne.symm h.1), ih h.2]

theorem pieces_append_sep (sep : Char) (cs rest : List Char) :
    pieces sep (cs ++ sep :: rest) = pieces sep cs ++ pieces sep rest := by
  induction cs with
  | nil => simp [pieces]
  | cons c cs ih =>
    rw [List.cons_append, pieces, pieces, ih]
    split
    · rfl
    · obtain ⟨first, later, hpieces⟩ := List.exists_cons_of_ne_nil (pieces_ne_nil sep cs)
      rw [hpieces]
      rfl

theorem pieces_append {sep : Char} {cs : List Char} (h : sep ∉ cs) (rest : List Char) :
    pieces sep (cs ++ sep :: rest) = cs :: pieces sep rest := by
  rw [pieces_append_sep, pieces_of_notMem h, List.singleton_append]

/-- A text with the separator in it has at least two pieces. -/
theorem exists_pieces_of_mem {sep : Char} {cs : List Char} (h : sep ∈ cs) :
    ∃ first second rest, pieces sep cs = first :: second :: rest := by
  obtain ⟨before, after, rfl, hbefore⟩ := List.eq_append_cons_of_mem h
  obtain ⟨second, rest, hafter⟩ := List.exists_cons_of_ne_nil (pieces_ne_nil sep after)
  exact ⟨before, second, rest, by rw [pieces_append hbefore, hafter]⟩

/-- The pieces of a text are free of what they are cut at. -/
theorem notMem_of_mem_pieces {sep : Char} {cs piece : List Char} (h : piece ∈ pieces sep cs) :
    sep ∉ piece := by
  induction cs generalizing piece with
  | nil =>
    obtain rfl : piece = [] := List.mem_singleton.1 h
    exact List.not_mem_nil
  | cons c rest ih =>
    rw [pieces] at h
    split at h
    · rcases List.mem_cons.1 h with rfl | h
      · exact List.not_mem_nil
      · exact ih h
    · next hne =>
      obtain ⟨first, later, hpieces⟩ := List.exists_cons_of_ne_nil (pieces_ne_nil sep rest)
      rw [hpieces] at h ih
      rcases List.mem_cons.1 h with rfl | h
      · rw [List.mem_cons, not_or]
        exact ⟨Ne.symm hne, ih List.mem_cons_self⟩
      · exact ih (List.mem_cons_of_mem first h)

theorem notMem_of_mem_piecesOf {sep : Char} {s piece : String} (h : piece ∈ piecesOf sep s) :
    sep ∉ piece.toList := by
  obtain ⟨cs, hcs, rfl⟩ := List.mem_map.1 h
  rw [String.toList_ofList]
  exact notMem_of_mem_pieces hcs

/-- The pieces with the separator between them are the text again. -/
theorem intercalate_pieces (sep : Char) (cs : List Char) :
    [sep].intercalate (pieces sep cs) = cs := by
  induction cs with
  | nil => rfl
  | cons c rest ih =>
    obtain ⟨first, later, hpieces⟩ := List.exists_cons_of_ne_nil (pieces_ne_nil sep rest)
    rw [pieces]
    split
    · next hsep =>
      rw [hpieces] at ih ⊢
      rw [List.intercalate_cons_cons, ih, hsep]
      rfl
    · rw [hpieces] at ih ⊢
      cases later with
      | nil => simpa using ih
      | cons second later =>
        rw [List.intercalate_cons_cons] at ih ⊢
        rw [← ih]
        rfl

theorem pieces_intercalate {sep : Char} {css : List (List Char)} (hne : css ≠ [])
    (h : ∀ cs ∈ css, sep ∉ cs) : pieces sep ([sep].intercalate css) = css := by
  induction css with
  | nil => exact absurd rfl hne
  | cons cs rest ih =>
    have hcs : sep ∉ cs := h cs List.mem_cons_self
    cases rest with
    | nil => rw [List.intercalate_singleton, pieces_of_notMem hcs]
    | cons next rest =>
      have ih := ih (List.cons_ne_nil _ _) fun ds hds => h ds (List.mem_cons_of_mem cs hds)
      rw [List.intercalate_cons_cons, List.append_assoc, List.singleton_append, pieces_append hcs,
        ih]

/-- Joining the pieces of a text gives the text back. -/
theorem intercalate_piecesOf (sep : Char) (s : String) :
    (String.singleton sep).intercalate (piecesOf sep s) = s := by
  have htoList : String.toList ∘ String.ofList = id := funext fun cs => String.toList_ofList
  rw [← String.toList_inj, String.toList_intercalate, piecesOf, List.map_map, htoList, List.map_id,
    String.toList_singleton, intercalate_pieces]

/-- Cutting joined pieces gives the pieces back, when none of them has the separator in it. -/
theorem piecesOf_intercalate {sep : Char} {parts : List String} (hne : parts ≠ [])
    (h : ∀ part ∈ parts, sep ∉ part.toList) :
    piecesOf sep ((String.singleton sep).intercalate parts) = parts := by
  have hofList : String.ofList ∘ String.toList = id := funext fun s => String.ofList_toList
  have hchars : ∀ cs ∈ parts.map String.toList, sep ∉ cs := List.forall_mem_map.2 h
  rw [piecesOf, String.toList_intercalate, String.toList_singleton,
    pieces_intercalate (mt List.map_eq_nil_iff.1 hne) hchars, List.map_map, hofList, List.map_id]

end Text

namespace Java.QualifiedName

/-- A name that Java could have: it lives in a package, and no part of it is empty or has a dot. -/
structure IsProper (name : QualifiedName) : Prop where
  qualified : name.isQualified = true
  base : name.base ≠ "" ∧ '.' ∉ name.base.toList
  segments : ∀ s ∈ name.segments, s ≠ "" ∧ '.' ∉ s.toList

instance (name : QualifiedName) : Decidable name.IsProper :=
  decidable_of_iff
    (name.isQualified = true ∧ (name.base ≠ "" ∧ '.' ∉ name.base.toList) ∧
      ∀ s ∈ name.segments, s ≠ "" ∧ '.' ∉ s.toList)
    ⟨fun h => ⟨h.1, h.2.1, h.2.2⟩, fun h => ⟨h.qualified, h.base, h.segments⟩⟩

def parts (name : QualifiedName) : List String := name.segments ++ [name.base]

theorem parts_ne_nil (name : QualifiedName) : name.parts ≠ [] := List.concat_ne_nil _ _

theorem parts_inj {a b : QualifiedName} (h : a.parts = b.parts) : a = b := by
  obtain ⟨hsegments, hbase⟩ := List.append_inj' h rfl
  cases a
  cases b
  cases hsegments
  cases hbase
  rfl

/-- The dotted text of a name is that of its parts with dots between them. -/
theorem dotted_eq (name : QualifiedName) : name.dotted = ".".intercalate name.parts := by
  obtain ⟨segments, base⟩ := name
  induction segments with
  | nil => simp [dotted, parts]
  | cons s rest ih =>
    calc
      dotted ⟨s :: rest, base⟩ = s ++ "." ++ dotted ⟨rest, base⟩ := by
        simp [dotted, String.append_assoc]
      _ = s ++ "." ++ ".".intercalate (rest ++ [base]) := by rw [ih, parts]
      _ = ".".intercalate (s :: (rest ++ [base])) :=
        (String.intercalate_cons_of_ne_nil (List.concat_ne_nil _ _)).symm

/-- The dotted text cut at its dots: the parts of the name. -/
theorem piecesOf_dotted {name : QualifiedName} (hbase : '.' ∉ name.base.toList)
    (hsegments : ∀ s ∈ name.segments, '.' ∉ s.toList) :
    Text.piecesOf '.' name.dotted = name.segments ++ [name.base] := by
  rw [dotted_eq]
  refine Text.piecesOf_intercalate name.parts_ne_nil fun part hpart => ?_
  rcases List.mem_append.1 hpart with hpart | hpart
  · exact hsegments part hpart
  · exact List.mem_singleton.1 hpart ▸ hbase

/-- Reading the dotted text of a name gives the name back. -/
theorem ofDotted_dotted {name : QualifiedName} (hbase : '.' ∉ name.base.toList)
    (hsegments : ∀ s ∈ name.segments, '.' ∉ s.toList) : ofDotted name.dotted = name := by
  simp [ofDotted, piecesOf_dotted hbase hsegments]

theorem IsProper.ofDotted_dotted {name : QualifiedName} (h : name.IsProper) :
    ofDotted name.dotted = name :=
  QualifiedName.ofDotted_dotted h.base.2 fun s hs => (h.segments s hs).2

theorem IsProper.dotted_inj {a b : QualifiedName} (ha : a.IsProper) (hb : b.IsProper)
    (h : a.dotted = b.dotted) : a = b := by
  rw [← ha.ofDotted_dotted, h, hb.ofDotted_dotted]

/-- The dotted text of a name in a package has a dot, unlike a short name. -/
theorem IsProper.base_ne_dotted {a b : QualifiedName} (ha : a.IsProper) (hb : b.IsProper) :
    a.base ≠ b.dotted := by
  intro h
  apply ha.base.2
  obtain ⟨segments, base⟩ := b
  cases segments with
  | nil => exact absurd hb.qualified (by simp [isQualified])
  | cons s rest => simp [h, dotted]

end Java.QualifiedName

end SchemaToJava
