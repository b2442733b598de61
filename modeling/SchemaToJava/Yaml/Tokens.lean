import SchemaToJava.Yaml.Token.Flow
import SchemaToJava.Yaml.Token.Block
import SchemaToJava.Yaml.Token.Tag

/-!
The tokens of a YAML text. The scanner follows the indentation of block collections. Something that
may turn out to be the key of a mapping is remembered until the colon comes or can come no more,
and the tokens for the key are then put in front of it.
-/
namespace SchemaToJava.Yaml

/-- Where something starts that may be a key. -/
structure KeyMark where
  /-- The number of tokens before it. -/
  place : Nat
  /-- Whether nothing but a key can stand there. -/
  required : Bool
  offset : Nat
  line : Nat
  column : Nat

/-- How far the scanner has come. -/
structure Scan where
  cursor : Cursor
  /-- More than the number of characters of the text; it bounds the steps of every loop. -/
  bound : Nat
  tokens : Array Token := #[]
  /-- The column of the innermost block collection, and those of the collections around it. -/
  indent : Int := -1
  outer : List Int := []
  /-- Whether a key may start here. -/
  keyAllowed : Bool := true
  /-- The possible key at each level of brackets, the innermost first. -/
  keys : List (Option KeyMark) := [none]

namespace Scan

def inFlow (s : Scan) : Bool := 1 < s.keys.length

def push (s : Scan) (t : Token) : Scan := { s with tokens := s.tokens.push t }

def skip (s : Scan) (n : Nat) : Scan := { s with cursor := s.cursor.skipMany n }

/-- Ends the block collections whose column is greater than the given one; `steps` bounds their
number. -/
def unroll (column : Int) : (steps : Nat) → Scan → Scan
  | 0, s => s
  | steps + 1, s =>
    match s.outer with
    | indent :: outer =>
      if column < s.indent then unroll column steps { s.push .blockEnd with indent, outer } else s
    | [] => s

/-- Ends the block collections that the given column lies outside of. -/
def leaveBlocks (s : Scan) (column : Int) : Scan :=
  if s.inFlow then s else s.unroll column (s.outer.length + 1)

/-- Starts a block collection in a column that is greater than that of the one around it. -/
def enterBlock (s : Scan) (column : Nat) (place : Nat) (start : Token) : Scan :=
  if !s.inFlow && s.indent < (column : Int) then
    { s with
      indent := column
      outer := s.indent :: s.outer
      tokens := s.tokens.insertIdx! place start }
  else s

/-- Gives up the possible key of the innermost level. -/
def dropKey (s : Scan) : Option Scan :=
  match s.keys with
  | some key :: keys => if key.required then none else some { s with keys := none :: keys }
  | _ => some s

/-- Remembers that a key may start here. -/
def saveKey (s : Scan) : Option Scan :=
  if s.keyAllowed then do
    let s ← s.dropKey
    let c := s.cursor
    let key : KeyMark :=
      ⟨s.tokens.size, !s.inFlow && s.indent == (c.column : Int), c.offset, c.line, c.column⟩
    return { s with keys := some key :: s.keys.drop 1 }
  else some s

/-- Gives up the possible keys that are too far away: a key ends on its line and is not longer than
1024 bytes. -/
def dropStaleKeys (s : Scan) : Option Scan := do
  let keys ← s.keys.mapM fun key =>
    match key with
    | some mark =>
      if mark.line < s.cursor.line || mark.offset + 1024 < s.cursor.offset then
        if mark.required then none else some none
      else some key
    | none => some none
  return { s with keys }

/-- Skips blanks, comments and line breaks, and a mark of the byte order that starts a line. Tabs
count as blanks only where no key may start. -/
def skipToToken : (fuel : Nat) → Scan → Scan
  | 0, s => s
  | fuel + 1, s =>
    let c := s.cursor
    let c := if c.atByteOrderMark then c.skip else c
    let tabs := s.inFlow || !s.keyAllowed
    let c := c.skipWhile fun x => x == ' ' || (tabs && x == '\t')
    let c := if c.startsWith '#' then c.skipWhile (fun x => !isBreak x) else c
    if c.peek.any isBreak then
      skipToToken fuel
        { s with cursor := c.skipBreak.1, keyAllowed := s.keyAllowed || !s.inFlow }
    else { s with cursor := c }

/-- Ends all blocks, before a directive, a mark between documents or the end of the text. -/
def leaveDocument (s : Scan) : Option Scan := do
  let s ← (s.leaveBlocks (-1)).dropKey
  return { s with keyAllowed := false }

def openFlow (s : Scan) (start : Token) : Option Scan := do
  let s ← s.saveKey
  return { (s.push start).skip 1 with keys := none :: s.keys, keyAllowed := true }

def closeFlow (s : Scan) (stop : Token) : Option Scan := do
  let s ← s.dropKey
  let keys := if s.inFlow then s.keys.drop 1 else s.keys
  return { (s.push stop).skip 1 with keys, keyAllowed := false }

def nextFlowEntry (s : Scan) : Option Scan := do
  let s ← s.dropKey
  return { (s.push .flowEntry).skip 1 with keyAllowed := true }

/-- Starts a block collection at the cursor for an entry that stands there, where one may start. -/
def startEntry (s : Scan) (start : Token) : Option Scan :=
  if s.inFlow then some s
  else if s.keyAllowed then some (s.enterBlock s.cursor.column s.tokens.size start)
  else none

def nextBlockEntry (s : Scan) : Option Scan := do
  let s ← (← s.startEntry .blockListStart).dropKey
  return { (s.push .blockEntry).skip 1 with keyAllowed := true }

def explicitKey (s : Scan) : Option Scan := do
  let s ← (← s.startEntry .blockTableStart).dropKey
  return { (s.push .key).skip 1 with keyAllowed := !s.inFlow }

def value (s : Scan) : Option Scan :=
  match s.keys with
  | some key :: keys =>
    let s := { s with keys := none :: keys, tokens := s.tokens.insertIdx! key.place .key }
    let s := s.enterBlock key.column key.place .blockTableStart
    some { (s.push .value).skip 1 with keyAllowed := false }
  | _ => do
    let s ← s.startEntry .blockTableStart
    return { (s.push .value).skip 1 with keyAllowed := !s.inFlow }

/-- Scans a token that may be a key or a part of one. -/
def property (s : Scan) (scan : Cursor → Option (Token × Cursor)) : Option Scan := do
  let s ← s.saveKey
  let (t, cursor) ← scan s.cursor
  return { s.push t with cursor, keyAllowed := false }

def quoted (s : Scan) (quote : Char) (style : Style) : Option Scan :=
  s.property fun c => do
    let (text, c) ← scanQuoted quote {} s.bound c.skip
    return (.scalar text style, c)

def block (s : Scan) (style : Style) : Option Scan := do
  let s ← s.dropKey
  let (text, cursor) ← scanBlock (style == .literal) s.indent s.bound s.cursor.skip
  return { s.push (.scalar text style) with cursor, keyAllowed := true }

def plain (s : Scan) : Option Scan := do
  let s ← s.saveKey
  let setting : PlainSetting := ⟨s.inFlow, (s.indent + 1).toNat⟩
  let (text, broken, cursor) ← scanPlain setting {} s.bound s.cursor
  return { s.push (.scalar text .plain) with cursor, keyAllowed := broken }

/-- The characters that a plain scalar does not start with, a hyphen, a question mark and a colon
apart. -/
def isIndicator (c : Char) : Bool :=
  isBlank c || isFlowMark c || c == '#' || c == '&' || c == '*' || c == '!' || c == '|' || c == '>' ||
    c == '\'' || c == '"' || c == '%' || c == '@' || c.toNat == 0x60

/-- Scans the token that starts with `x`. -/
def step (s : Scan) (x : Char) : Option Scan :=
  let next := s.cursor.second
  let apart := Cursor.endsWord next
  if s.cursor.column = 0 && x == '%' then do
    let s ← s.leaveDocument
    let (t, cursor) ← scanDirective s.cursor.skip
    return { s.push t with cursor }
  else if s.cursor.atDocumentMark then do
    let s ← s.leaveDocument
    return (s.push (if x == '-' then .documentStart else .documentEnd)).skip 3
  else if x == '[' then s.openFlow .flowListStart
  else if x == '{' then s.openFlow .flowTableStart
  else if x == ']' then s.closeFlow .flowListEnd
  else if x == '}' then s.closeFlow .flowTableEnd
  else if x == ',' then s.nextFlowEntry
  else if x == '-' && apart then s.nextBlockEntry
  else if x == '?' && (s.inFlow || apart) then s.explicitKey
  else if x == ':' && (s.inFlow || apart) then s.value
  else if x == '*' then s.property fun c => do
    let (name, c) ← scanName c.skip
    return (.aliasOf name, c)
  else if x == '&' then s.property fun c => do
    let (name, c) ← scanName c.skip
    return (.anchor name, c)
  else if x == '!' then s.property (scanTag s.inFlow)
  else if x == '|' && !s.inFlow then s.block .literal
  else if x == '>' && !s.inFlow then s.block .folded
  else if x == '\'' then s.quoted '\'' .singleQuoted
  else if x == '"' then s.quoted '"' .doubleQuoted
  else if isIndicator x then none
  else s.plain

/-- Scans all tokens; each step takes at least one character. -/
def run : (fuel : Nat) → Scan → Option (Array Token)
  | 0, _ => none
  | fuel + 1, s => do
    let s ← (skipToToken s.bound s).dropStaleKeys
    let s := s.leaveBlocks s.cursor.column
    match s.cursor.peek with
    | none => return (← s.leaveDocument).tokens
    | some x => run fuel (← s.step x)

end Scan

/-- The tokens of a text, if it has the form of YAML. -/
def tokensOf (text : String) : Option (List Token) :=
  let cs := text.toList
  let bound := cs.length + 1
  if cs.all isAllowed then
    (Scan.run bound { cursor := { rest := cs }, bound }).map Array.toList
  else none

end SchemaToJava.Yaml
