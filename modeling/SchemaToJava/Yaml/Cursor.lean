import SchemaToJava.Text.Width

/-!
A place in a YAML text: what follows it, and the line and the column it stands in. YAML knows more
line breaks than JSON; inside a scalar most of them count as a line feed. Columns count characters,
while the distance between two places counts bytes.
-/
namespace SchemaToJava.Yaml

def isBlank (c : Char) : Bool := c == ' ' || c == '\t'

def isBreak (c : Char) : Bool :=
  c == '\n' || c == '\r' || c.toNat == 0x85 || c.toNat == 0x2028 || c.toNat == 0x2029

/-- The letters that names of anchors and directives are made of. -/
def isNameChar (c : Char) : Bool := c.isAlphanum || c == '-' || c == '_'

/-- Whether a character may occur in a text at all. -/
def isAllowed (c : Char) : Bool :=
  let n := c.toNat
  n == 0x9 || n == 0xa || n == 0xd || (0x20 ≤ n && n ≤ 0x7e) || n == 0x85 ||
    (0xa0 ≤ n && n ≤ 0xd7ff) || (0xe000 ≤ n && n ≤ 0xfffd) || 0x10000 ≤ n

/-- A place in a text. -/
structure Cursor where
  rest : List Char
  /-- The number of bytes before the place. -/
  offset : Nat := 0
  line : Nat := 0
  column : Nat := 0

namespace Cursor

def peek (c : Cursor) : Option Char := c.rest.head?

/-- Whether a character, or the end of the text, is a blank, a break or the end. -/
def endsWord (c : Option Char) : Bool := c.all fun c => isBlank c || isBreak c

def atLineEnd (c : Cursor) : Bool := c.peek.all isBreak

def startsWith (c : Cursor) (x : Char) : Bool := c.peek == some x

/-- Whether a mark of the byte order stands here at the start of a line. -/
def atByteOrderMark (c : Cursor) : Bool := c.column == 0 && c.peek.any (·.toNat == 0xfeff)

def second (c : Cursor) : Option Char := c.rest[1]?

/-- The place after several characters without a break. -/
def skipMany (c : Cursor) (n : Nat) : Cursor :=
  { c with
    rest := c.rest.drop n
    offset := c.offset + Text.byteCount (c.rest.take n)
    column := c.column + n }

/-- The place after the next character, which is no break. -/
def skip (c : Cursor) : Cursor := c.skipMany 1

/-- The place after the characters that satisfy `p`, none of which is a break. -/
def skipWhile (c : Cursor) (p : Char → Bool) : Cursor :=
  c.skipMany (c.rest.takeWhile p).length

/-- The place after a line break, and what the break counts for in a scalar. -/
def skipBreak (c : Cursor) : Cursor × List Char :=
  let after (n : Nat) : Cursor :=
    { rest := c.rest.drop n
      offset := c.offset + Text.byteCount (c.rest.take n)
      line := c.line + 1
      column := 0 }
  match c.rest with
  | '\r' :: '\n' :: _ => (after 2, ['\n'])
  | b :: _ => (after 1, if b.toNat == 0x2028 || b.toNat == 0x2029 then [b] else ['\n'])
  | [] => (c, [])

/-- Whether `---` or `...` stands here at the start of a line. -/
def atDocumentMark (c : Cursor) : Bool :=
  c.column == 0 &&
    match c.rest with
    | x :: y :: z :: rest =>
      (x == '-' || x == '.') && y == x && z == x && endsWord rest.head?
    | _ => false

end Cursor

end SchemaToJava.Yaml
