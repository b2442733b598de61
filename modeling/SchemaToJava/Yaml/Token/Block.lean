import SchemaToJava.Yaml.Cursor

/-!
Scalars written as an indented block after `|` or `>`. A literal block keeps its line breaks; a
folded one joins lines that are not indented further. The header says what becomes of the breaks
at the end, and may give the indentation, which otherwise is that of the first line with a text.
-/
namespace SchemaToJava.Yaml

/-- What becomes of the line breaks at the end of a block. -/
inductive Chomping where
  /-- Without breaks. -/
  | strip
  /-- With one break. -/
  | clip
  /-- With all breaks. -/
  | keep
deriving DecidableEq, Repr

def chompingMark? : Option Char → Option Chomping
  | some '+' => some .keep
  | some '-' => some .strip
  | _ => none

/-- An indentation mark, which is not zero. -/
def indentMark? (c : Option Char) : Option Nat :=
  c.bind fun c => if c.isDigit then some (c.toNat - '0'.toNat) else none

/-- Scans the header of a block after its indicator, up to the end of the line. An indentation of
zero stands for none. -/
def scanHeader (c : Cursor) : Option (Chomping × Nat × Cursor) := do
  let (chomping, indent, c) :=
    match chompingMark? c.peek, indentMark? c.peek with
    | some chomping, _ =>
      match indentMark? c.second with
      | some indent => (chomping, some indent, c.skipMany 2)
      | none => (chomping, none, c.skip)
    | none, some indent =>
      match chompingMark? c.second with
      | some chomping => (chomping, some indent, c.skipMany 2)
      | none => (.clip, some indent, c.skip)
    | none, none => (.clip, none, c)
  if indent = some 0 then none
  else
    let c := c.skipWhile isBlank
    let c := if c.startsWith '#' then c.skipWhile (fun x => !isBreak x) else c
    if c.atLineEnd then some (chomping, indent.getD 0, c.skipBreak.1) else none

/-- Skips the indentation of a line; without a known one, all its spaces. -/
def skipIndent (indent : Nat) (c : Cursor) : Cursor :=
  let spaces := (c.rest.takeWhile (· == ' ')).length
  c.skipMany (if indent = 0 then spaces else min spaces (indent - c.column))

/-- Skips empty lines up to a line with a text. Gives their breaks, last one first, and the widest
indentation met. -/
def scanEmptyLines (indent : Nat) (widest : Nat) (breaks : List Char) :
    (fuel : Nat) → Cursor → Option (Nat × List Char × Cursor)
  | 0, _ => none
  | fuel + 1, c =>
    let c := skipIndent indent c
    let widest := max widest c.column
    if (indent = 0 || c.column < indent) && c.startsWith '\t' then none
    else if c.peek.any isBreak then
      let (c, b) := c.skipBreak
      scanEmptyLines indent widest (b ++ breaks) fuel c
    else some (widest, breaks, c)

/-- The text of a block so far, last character first. -/
structure BlockText where
  text : List Char := []
  /-- The break at the end of the last line. -/
  leading : List Char := []
  /-- The breaks of the empty lines after it, last one first. -/
  trailing : List Char := []
  /-- Whether the last line starts with a blank. -/
  blankStart : Bool := false

/-- The text before a line that starts with a blank or not. -/
def BlockText.join (literal : Bool) (b : BlockText) (blankStart : Bool) : List Char :=
  if !literal && b.leading == ['\n'] && !b.blankStart && !blankStart then
    if b.trailing.isEmpty then ' ' :: b.text else b.trailing ++ b.text
  else b.trailing ++ b.leading ++ b.text

def scanLines (literal : Bool) (indent : Nat) (b : BlockText) :
    (fuel : Nat) → Cursor → Option (BlockText × Cursor)
  | 0, _ => none
  | fuel + 1, c =>
    if c.column = indent && !c.rest.isEmpty then do
      let blankStart := c.peek.any isBlank
      let line := c.rest.takeWhile fun x => !isBreak x
      let (c, leading) := (c.skipMany line.length).skipBreak
      let (_, trailing, c) ← scanEmptyLines indent 0 [] fuel c
      let text := line.reverse ++ b.join literal blankStart
      scanLines literal indent { text, leading, trailing, blankStart } fuel c
    else some (b, c)

/-- Scans a block after its indicator. `outer` is the indentation of the collection around it, one
less than zero outside of all; `fuel` is more than the number of characters that follow. -/
def scanBlock (literal : Bool) (outer : Int) (fuel : Nat) (c : Cursor) :
    Option (String × Cursor) := do
  let (chomping, given, c) ← scanHeader c
  let indent : Nat := if given = 0 then 0 else (max outer 0 + given).toNat
  let (widest, breaks, c) ← scanEmptyLines indent 0 [] fuel c
  let indent := if indent = 0 then max (max widest (outer + 1).toNat) 1 else indent
  let (b, c) ← scanLines literal indent { trailing := breaks } fuel c
  let ending :=
    match chomping with
    | .strip => []
    | .clip => b.leading
    | .keep => b.trailing ++ b.leading
  return (String.ofList (ending ++ b.text).reverse, c)

end SchemaToJava.Yaml
