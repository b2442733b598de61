import SchemaToJava.Java.TypeShape

/-!
Trees of places in a list, and their text: a place, or a place in brackets followed by the texts of
its subtrees with a comma before each. A tree whose text is followed by no digit is read back from
it, so the text determines the tree.
-/
namespace SchemaToJava.Java

inductive PlaceTree where
  | node (place : Nat) (children : List PlaceTree)

namespace PlaceTree

def readPlace (cs : List Char) : Option Nat :=
  let digits := cs.takeWhile Char.isDigit
  if digits.isEmpty then none else some (Nat.ofDigitChars 10 digits 0)

def afterPlace (cs : List Char) : List Char := cs.dropWhile Char.isDigit

mutual

/-- Reads a tree from the start of a text: a place, or a place in brackets followed by subtrees. -/
def read : List Char → Option (PlaceTree × List Char)
  | '[' :: inner => do
    let place ← readPlace inner
    let (children, rest) ← readChildren (afterPlace inner)
    return (.node place children, rest)
  | cs => do return (.node (← readPlace cs) [], afterPlace cs)
termination_by cs => cs.length
decreasing_by exact Nat.lt_succ_of_le (List.dropWhile_suffix _).length_le

/-- Reads subtrees, each after a comma, up to the closing bracket. -/
def readChildren : List Char → Option (List PlaceTree × List Char)
  | ']' :: rest => some ([], rest)
  | ',' :: next => do
    let (first, after) ← read next
    -- a tree is not empty, so something has been read
    if after.length ≤ next.length then
      let (others, rest) ← readChildren after
      return (first :: others, rest)
    else none
  | _ => none
termination_by cs => cs.length
decreasing_by all_goals simp only [List.length_cons]; omega

end

def ofText? (s : String) : Option PlaceTree :=
  match read s.toList with
  | some (t, []) => some t
  | _ => none

mutual

/-- The text of a tree. A place has no brackets unless subtrees follow it. -/
def chars : PlaceTree → List Char
  | .node place [] => Nat.toDigits 10 place
  | .node place (first :: others) =>
    '[' :: (Nat.toDigits 10 place ++ (charsAfter (first :: others) ++ [']']))

def charsAfter : List PlaceTree → List Char
  | [] => []
  | first :: others => ',' :: (first.chars ++ charsAfter others)

end

def EndsPlace (rest : List Char) : Prop := ∀ c ∈ rest.head?, c.isDigit = false

theorem endsPlace_cons {c : Char} (h : c.isDigit = false) (rest : List Char) :
    EndsPlace (c :: rest) := by
  rintro d ⟨⟩
  exact h

theorem endsPlace_charsAfter (children : List PlaceTree) (rest : List Char) :
    EndsPlace (charsAfter children ++ ']' :: rest) := by
  cases children with
  | nil => exact endsPlace_cons rfl rest
  | cons first others => exact endsPlace_cons rfl _

variable {rest : List Char}

theorem isDigit_toDigits (place : Nat) : ∀ c ∈ Nat.toDigits 10 place, c.isDigit = true :=
  fun _ hc => Nat.isDigit_of_mem_toDigits (by decide) (by decide) hc

theorem readPlace_toDigits (place : Nat) (h : EndsPlace rest) :
    readPlace (Nat.toDigits 10 place ++ rest) = some place := by
  have hstop : rest.takeWhile Char.isDigit = [] := by
    cases rest with
    | nil => rfl
    | cons c rest => simp [h c rfl]
  unfold readPlace
  rw [List.takeWhile_append_of_pos (isDigit_toDigits place), hstop, List.append_nil]
  simp [Nat.toDigits_ne_nil, Nat.ofDigitChars_ten_toDigits]

theorem afterPlace_toDigits (place : Nat) (h : EndsPlace rest) :
    afterPlace (Nat.toDigits 10 place ++ rest) = rest := by
  unfold afterPlace
  rw [List.dropWhile_append_of_pos (isDigit_toDigits place)]
  cases rest with
  | nil => rfl
  | cons c rest => simp [h c rfl]

theorem read_toDigits (place : Nat) (h : EndsPlace rest) :
    read (Nat.toDigits 10 place ++ rest) = some (.node place [], rest) := by
  obtain ⟨c, digits, hdigits⟩ : ∃ c digits, Nat.toDigits 10 place = c :: digits :=
    List.exists_cons_of_ne_nil Nat.toDigits_ne_nil
  have hc : c ≠ '[' := by
    rintro rfl
    have hbracket := isDigit_toDigits place '[' (by simp [hdigits])
    cases hbracket
  have hread : read (Nat.toDigits 10 place ++ rest) = (do
      return (.node (← readPlace (Nat.toDigits 10 place ++ rest)) [],
        afterPlace (Nat.toDigits 10 place ++ rest))) := by
    rw [hdigits, List.cons_append, read]
    exact fun inner hinner => hc (List.cons.inj hinner).1
  rw [hread, readPlace_toDigits place h, afterPlace_toDigits place h]
  rfl

/-- Brackets may stand around a place without subtrees as well. -/
theorem read_brackets {place : Nat} {children : List PlaceTree}
    (h : readChildren (charsAfter children ++ ']' :: rest) = some (children, rest)) :
    read ('[' :: (Nat.toDigits 10 place ++ (charsAfter children ++ ']' :: rest))) =
      some (.node place children, rest) := by
  have hends := endsPlace_charsAfter children rest
  rw [read, readPlace_toDigits place hends, afterPlace_toDigits place hends]
  simp only [Option.pure_def, Option.bind_eq_bind, Option.bind_some, h]

mutual

/-- A tree is read back from its text. -/
theorem read_chars : (t : PlaceTree) → {rest : List Char} → EndsPlace rest →
    read (t.chars ++ rest) = some (t, rest)
  | .node place [], rest, h => by
    rw [chars]
    exact read_toDigits place h
  | .node place (first :: others), rest, h => by
    have hchildren := readChildren_charsAfter (first :: others) rest
    rw [chars, List.cons_append, List.append_assoc, List.append_assoc]
    exact read_brackets hchildren

theorem readChildren_charsAfter : (children : List PlaceTree) → (rest : List Char) →
    readChildren (charsAfter children ++ ']' :: rest) = some (children, rest)
  | [], rest => by
    rw [charsAfter, List.nil_append, readChildren]
  | first :: others, rest => by
    have hfirst := read_chars first (endsPlace_charsAfter others rest)
    have hothers := readChildren_charsAfter others rest
    rw [charsAfter, List.cons_append, List.append_assoc, readChildren, hfirst]
    simp [hothers]

end

/-- A whole tree may be written in brackets whether it has subtrees or not. -/
theorem ofText?_brackets {s : String} {place : Nat} {children : List PlaceTree}
    (h : s.toList = '[' :: (Nat.toDigits 10 place ++ (charsAfter children ++ [']']))) :
    ofText? s = some (.node place children) := by
  unfold ofText?
  rw [h, read_brackets (readChildren_charsAfter children [])]

end PlaceTree

end SchemaToJava.Java
