import SchemaToJava.Text.Digit
import SchemaToJava.Yaml.Cursor

/-!
Scalars that run on over lines: plain ones and quoted ones. The blanks around a line break do not
count; a single break counts as a space, and of several breaks the first is dropped.
-/
namespace SchemaToJava.Yaml

/-- The text of a scalar so far, last character first, and the blanks and breaks after it, which
count only when more text follows. -/
structure Folding where
  text : List Char := []
  blanks : List Char := []
  /-- The first break since the text and the later ones, once there is a break. -/
  breaks : Option (List Char × List Char) := none

namespace Folding

/-- Puts the pending blanks and breaks into the text. -/
def settle (f : Folding) : Folding :=
  match f.breaks with
  | none => ⟨f.blanks ++ f.text, [], none⟩
  | some (first, later) =>
    if first = ['\n'] then
      if later.isEmpty then ⟨' ' :: f.text, [], none⟩ else ⟨later ++ f.text, [], none⟩
    else ⟨later ++ first ++ f.text, [], none⟩

def push (f : Folding) (c : Char) : Folding :=
  let f := f.settle
  { f with text := c :: f.text }

/-- A blank counts only before the first break. -/
def pushBlank (f : Folding) (c : Char) : Folding :=
  if f.breaks.isSome then f else { f with blanks := c :: f.blanks }

def pushBreak (f : Folding) (b : List Char) : Folding :=
  match f.breaks with
  | none => { f with blanks := [], breaks := some (b, []) }
  | some (first, later) => { f with breaks := some (first, b ++ later) }

def isPending (f : Folding) : Bool := !f.blanks.isEmpty || f.breaks.isSome

def result (f : Folding) : String := String.ofList f.text.reverse

end Folding

def escape? : Char → Option Char
  | '0' => some (Char.ofNat 0)
  | 'a' => some (Char.ofNat 0x7)
  | 'b' => some (Char.ofNat 0x8)
  | 't' => some '\t'
  | '\t' => some '\t'
  | 'n' => some '\n'
  | 'v' => some (Char.ofNat 0xb)
  | 'f' => some (Char.ofNat 0xc)
  | 'r' => some '\r'
  | 'e' => some (Char.ofNat 0x1b)
  | ' ' => some ' '
  | '"' => some '"'
  | '/' => some '/'
  | '\\' => some '\\'
  | 'N' => some (Char.ofNat 0x85)
  | '_' => some (Char.ofNat 0xa0)
  | 'L' => some (Char.ofNat 0x2028)
  | 'P' => some (Char.ofNat 0x2029)
  | _ => none

def codeLength? : Char → Option Nat
  | 'x' => some 2
  | 'u' => some 4
  | 'U' => some 8
  | _ => none

def hexChar? (length : Nat) (cs : List Char) : Option Char := do
  let digits := cs.take length
  let code ← Text.digitsOf? 16 digits
  if digits.length = length && code.isValidChar then some (Char.ofNat code) else none

/-- Scans a quoted scalar after its opening quote. The steps are bounded by `fuel`. -/
def scanQuoted (quote : Char) (f : Folding) : (fuel : Nat) → Cursor → Option (String × Cursor)
  | 0, _ => none
  | fuel + 1, c =>
    if c.atDocumentMark then none
    else
      match c.rest with
      | [] => none
      | x :: after =>
        if isBlank x then scanQuoted quote (f.pushBlank x) fuel c.skip
        else if isBreak x then
          let (c, b) := c.skipBreak
          scanQuoted quote (f.pushBreak b) fuel c
        else if x = quote then
          if quote = '\'' && after.head? == some '\'' then
            scanQuoted quote (f.push '\'') fuel (c.skipMany 2)
          else some (f.settle.result, c.skip)
        else if quote = '"' && x = '\\' then
          match after with
          | [] => none
          | e :: code =>
            if isBreak e then
              scanQuoted quote { f.settle with breaks := some ([], []) } fuel c.skip.skipBreak.1
            else
              match escape? e, codeLength? e with
              | some y, _ => scanQuoted quote (f.push y) fuel (c.skipMany 2)
              | none, some length =>
                match hexChar? length code with
                | some y => scanQuoted quote (f.push y) fuel (c.skipMany (2 + length))
                | none => none
              | none, none => none
        else scanQuoted quote (f.push x) fuel c.skip

/-- What a plain scalar is scanned in: whether brackets are open around it, and the least column
of its further lines. -/
structure PlainSetting where
  inFlow : Bool
  indent : Nat

def isFlowMark (c : Char) : Bool :=
  c == ',' || c == '[' || c == ']' || c == '{' || c == '}'

/-- What a plain scalar that ends here gives: its text, whether it ended after a line break, and the
place. -/
def plainResult (f : Folding) (c : Cursor) : String × Bool × Cursor := (f.result, f.breaks.isSome, c)

/-- Scans a plain scalar; also gives whether it ended after a line break. -/
def scanPlain (setting : PlainSetting) (f : Folding) :
    (fuel : Nat) → Cursor → Option (String × Bool × Cursor)
  | 0, _ => none
  | fuel + 1, c =>
    match c.rest with
    | [] => some (plainResult f c)
    | x :: after =>
      if isBlank x then
        if f.breaks.isSome && c.column < setting.indent && x == '\t' then none
        else scanPlain setting (f.pushBlank x) fuel c.skip
      else if isBreak x then
        let (c, b) := c.skipBreak
        scanPlain setting (f.pushBreak b) fuel c
      else if f.isPending &&
          ((!setting.inFlow && c.column < setting.indent) || c.atDocumentMark || x == '#') then
        some (plainResult f c)
      else if setting.inFlow && x == ':' && after.head?.any (fun y => isFlowMark y || y == '?') then
        none
      else if (x == ':' && Cursor.endsWord after.head?) || (setting.inFlow && isFlowMark x) then
        some (plainResult f c)
      else scanPlain setting (f.push x) fuel c.skip

end SchemaToJava.Yaml
