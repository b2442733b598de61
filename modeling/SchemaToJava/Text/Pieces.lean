/-!
Texts cut at a separator and texts joined by one. Cutting keeps empty pieces, so a text with `n`
separators has `n + 1` pieces and joining them gives the text back.
-/
namespace SchemaToJava.Text

/-- The pieces of a text between the occurrences of `sep`. -/
def pieces (sep : Char) : List Char → List (List Char)
  | [] => [[]]
  | c :: rest =>
    if c = sep then [] :: pieces sep rest
    else
      match pieces sep rest with
      | [] => [[c]]
      | first :: later => (c :: first) :: later

theorem pieces_ne_nil (sep : Char) (cs : List Char) : pieces sep cs ≠ [] := by
  cases cs with
  | nil => simp [pieces]
  | cons c rest =>
    unfold pieces
    split
    · simp
    · split <;> simp

def piecesOf (sep : Char) (s : String) : List String :=
  (pieces sep s.toList).map String.ofList

theorem piecesOf_ne_nil (sep : Char) (s : String) : piecesOf sep s ≠ [] := by
  simp [piecesOf, pieces_ne_nil]

/-- Texts that are joined: the first one, and each later one after a separator. -/
theorem toList_intercalate_cons (sep s : String) (rest : List String) :
    (sep.intercalate (s :: rest)).toList =
      s.toList ++ rest.flatMap fun t => sep.toList ++ t.toList := by
  induction rest generalizing s with
  | nil => simp
  | cons t rest ih =>
    rw [String.intercalate_cons_cons, String.toList_append, String.toList_append, ih,
      List.flatMap_cons, List.append_assoc, List.append_assoc]

/-- The text after `lead`, when the text starts with it. -/
def dropLead : (lead cs : List Char) → Option (List Char)
  | [], cs => some cs
  | _ :: _, [] => none
  | l :: lead, c :: cs => if l = c then dropLead lead cs else none

/-- The rest of a string that starts with `lead`. -/
def afterLead (lead s : String) : Option String :=
  (dropLead lead.toList s.toList).map String.ofList

/-- Replaces every occurrence of `find`, scanning from the left; `find` is not empty. -/
def replaceAll (find replacement : List Char) (cs : List Char) : List Char :=
  match cs with
  | [] => []
  | c :: rest =>
    match dropLead find (c :: rest) with
    | some after =>
      if after.length ≤ rest.length then replacement ++ replaceAll find replacement after
      else c :: replaceAll find replacement rest
    | none => c :: replaceAll find replacement rest
termination_by cs.length
decreasing_by all_goals simp only [List.length_cons]; omega

end SchemaToJava.Text
