import SchemaToJava.Text.Digit
import SchemaToJava.Yaml.Token
import SchemaToJava.Yaml.Cursor

/-!
Anchors, tags and directives. A tag has a handle, which a directive may have given a meaning, and a
suffix; both are made of the characters of addresses, others being written as bytes after `%`. The
bytes have to come in groups of the form of encoded characters, which may yet encode none.
-/
namespace SchemaToJava.Yaml

/-- Scans the name of an anchor or an alias after its indicator. -/
def scanName (c : Cursor) : Option (String × Cursor) :=
  let name := c.rest.takeWhile isNameChar
  let after := c.skipMany name.length
  let ends := Cursor.endsWord after.peek ||
    after.peek.any fun x =>
      x == '?' || x == ':' || x == ',' || x == ']' || x == '}' || x == '%' || x == '@' || x == '`'
  if name.isEmpty || !ends then none else some (String.ofList name, after)

def isAddressMark (c : Char) : Bool :=
  c == ';' || c == '/' || c == '?' || c == ':' || c == '@' || c == '&' || c == '=' || c == '+' ||
    c == '$' || c == '.' || c == '!' || c == '~' || c == '*' || c == '\'' || c == '(' || c == ')' ||
    c == '%'

/-- Whether a character may stand in an address; brackets and commas only between `<` and `>`. -/
def isAddressChar (verbatim : Bool) (c : Char) : Bool :=
  isNameChar c || isAddressMark c || (verbatim && (c == ',' || c == '[' || c == ']'))

def hexByte? (a b : Char) : Option UInt8 := (Text.digitsOf? 16 [a, b]).map UInt8.ofNat

/-- The number of bytes of an encoded character that starts with the given byte. -/
def groupWidth? (lead : UInt8) : Option Nat :=
  if lead &&& 0x80 = 0 then some 1
  else if lead &&& 0xe0 = 0xc0 then some 2
  else if lead &&& 0xf0 = 0xe0 then some 3
  else if lead &&& 0xf8 = 0xf0 then some 4
  else none

/-- The bytes of an address, whose escapes are resolved; `due` bytes of a group are still to come. -/
def addressBytes (due : Nat) : List Char → Option (List UInt8)
  | [] => if due = 0 then some [] else none
  | '%' :: a :: b :: rest => do
    let byte ← hexByte? a b
    match due with
    | 0 => return byte :: (← addressBytes ((← groupWidth? byte) - 1) rest)
    | due + 1 =>
      if byte &&& 0xc0 = 0x80 then return byte :: (← addressBytes due rest) else none
  | c :: rest =>
    if due = 0 && c != '%' then do return c.toUInt8 :: (← addressBytes 0 rest) else none

/-- Scans an address after the bytes of `lead`; it may be empty where `mayBeEmpty` says so. A zero
byte ends the tag that it stands in. -/
def scanAddress (verbatim mayBeEmpty : Bool) (lead : List UInt8) (c : Cursor) :
    Option (Tag × Cursor) := do
  let cs := c.rest.takeWhile (isAddressChar verbatim)
  if cs.isEmpty && !mayBeEmpty then none
  else
    let bytes ← addressBytes 0 cs
    return (⟨(lead ++ bytes).takeWhile (· != 0)⟩, c.skipMany cs.length)

/-- Scans a handle, which starts with an exclamation mark and in a directive also ends with one. -/
def scanHandle (directive : Bool) (c : Cursor) : Option (String × Cursor) :=
  if !c.startsWith '!' then none
  else
    let letters := c.skip.rest.takeWhile isNameChar
    let after := c.skip.skipMany letters.length
    let name := "!" ++ String.ofList letters
    if after.startsWith '!' then some (name ++ "!", after.skip)
    else if directive && !letters.isEmpty then none
    else some (name, after)

/-- Scans a tag. A tag `!` alone has an empty handle. -/
def scanTag (inFlow : Bool) (c : Cursor) : Option (Token × Cursor) := do
  let (token, c) ←
    if c.second == some '<' then do
      let (suffix, c) ← scanAddress true false [] (c.skipMany 2)
      if c.startsWith '>' then some (Token.tag "" suffix, c.skip) else none
    else do
      let (handle, c) ← scanHandle false c
      if 2 ≤ handle.length && handle.endsWith "!" then
        let (suffix, c) ← scanAddress false false [] c
        some (Token.tag handle suffix, c)
      else
        let (suffix, c) ← scanAddress false true (handle.toUTF8.toList.drop 1) c
        some (if suffix.isEmpty then Token.tag "" (.ofString "!") else Token.tag "!" suffix, c)
  if Cursor.endsWord c.peek || (inFlow && c.startsWith ',') then some (token, c) else none

/-- Scans a number of at most nine digits. -/
def scanVersionPart (c : Cursor) : Option (Nat × Cursor) :=
  let digits := c.rest.takeWhile Char.isDigit
  if digits.isEmpty || 9 < digits.length then none
  else some (digits.foldl (fun n d => n * 10 + (d.toNat - '0'.toNat)) 0, c.skipMany digits.length)

def scanDirectiveValue (name : String) (c : Cursor) : Option (Token × Cursor) := do
  let c := c.skipWhile isBlank
  match name with
  | "YAML" =>
    let (major, c) ← scanVersionPart c
    if c.startsWith '.' then
      let (minor, c) ← scanVersionPart c.skip
      return (.versionDirective major minor, c)
    else none
  | "TAG" =>
    let (handle, c) ← scanHandle true c
    if c.peek.any isBlank then
      let (lead, c) ← scanAddress true false [] (c.skipWhile isBlank)
      if Cursor.endsWord c.peek then return (.tagDirective handle lead, c) else none
    else none
  | _ => none

/-- Scans a directive after its percent sign, to the end of its line. -/
def scanDirective (c : Cursor) : Option (Token × Cursor) := do
  let name := c.rest.takeWhile isNameChar
  let c := c.skipMany name.length
  if name.isEmpty || !Cursor.endsWord c.peek then none
  else
    let (token, c) ← scanDirectiveValue (String.ofList name) c
    let c := c.skipWhile isBlank
    let c := if c.startsWith '#' then c.skipWhile (fun x => !isBreak x) else c
    if c.atLineEnd then return (token, c.skipBreak.1) else none

end SchemaToJava.Yaml
