import SchemaToJava.Text.Alphanumeric
import SchemaToJava.Text.LetterCase

/-!
Camel-cased names. A text is cut into words at every character that is no letter or digit, and
inside such a stretch where the case shows a new word: before an upper-case letter that follows a
lower-case one, and before the last capital of a run of capitals when a lower-case letter follows.
-/
namespace SchemaToJava.Text

/-- The longest stretches of characters that satisfy `p`. -/
def stretches (p : Char → Bool) : List Char → List (List Char)
  | [] => []
  | c :: rest =>
    if p c then
      match rest.head?, stretches p rest with
      | some d, first :: later => if p d then (c :: first) :: later else [c] :: first :: later
      | _, later => [c] :: later
    else stretches p rest

/-- The case of the last letter read in a word; digits leave it as it is. -/
inductive CaseSeen where
  | none
  | lower
  | upper
deriving DecidableEq, Repr

def CaseSeen.after (seen : CaseSeen) (c : Char) : CaseSeen :=
  if isLower c then .lower else if isUpper c then .upper else seen

/-- Cuts a stretch into words; `word` holds the current word, last character first. -/
def cutByCase (seen : CaseSeen) (word : List Char) : List Char → List (List Char)
  | [] => if word.isEmpty then [] else [word.reverse]
  | [c] => [(c :: word).reverse]
  | c :: d :: rest =>
    if seen.after c = .lower && isUpper d then
      (c :: word).reverse :: cutByCase .none [] (d :: rest)
    else if seen = .upper && isUpper c && isLower d then
      word.reverse :: cutByCase .none [c] (d :: rest)
    else
      cutByCase (seen.after c) (c :: word) (d :: rest)

def words (s : String) : List (List Char) :=
  (stretches isAlphanumeric s.toList).flatMap (cutByCase .none [])

/-- A word in lower case. A sigma in the last place takes its final form. -/
def lowerWord : List Char → List Char
  | [] => []
  | ['Σ'] => ['ς']
  | c :: rest => toLower c ++ lowerWord rest

/-- A word whose first letter alone is in upper case. -/
def capitalizedWord : List Char → List Char
  | [] => []
  | c :: rest => toUpper c ++ lowerWord rest

def upperCamel (s : String) : String :=
  String.ofList ((words s).flatMap capitalizedWord)

/-- The words run together, each of them but the first capitalized. -/
def lowerCamel (s : String) : String :=
  match words s with
  | [] => ""
  | first :: later => String.ofList (lowerWord first ++ later.flatMap capitalizedWord)

end SchemaToJava.Text
