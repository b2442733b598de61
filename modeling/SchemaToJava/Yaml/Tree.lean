import SchemaToJava.Yaml.Scalar
import SchemaToJava.Yaml.Tokens
import Std.Data.HashMap

/-!
The tree of a YAML text. Tokens are composed into nodes whose aliases are numbers of anchors. A
number may come to mark several nodes; when the document ends, its aliases stand for the last of
them, so an alias can stand for a node that comes after it or that it is part of.
-/
namespace SchemaToJava.Yaml

open Reading

/-- What composing keeps track of. -/
structure Composing where
  rest : List Token
  /-- The meaning of each handle of a tag. -/
  handles : List (String × Tag) := []
  /-- The number of each name of an anchor. -/
  numbers : Std.HashMap String Nat := {}
  /-- The number of anchors so far. -/
  started : Nat := 0
  /-- For each number the last anchor that has it, by its place among all anchors, and the node that
  it stands at. -/
  anchored : Array (Nat × Node) := #[]
  /-- The number of nodes, where the two ends of a container count on their own. -/
  size : Nat := 0

/-- A step of composing, which fails where the tokens form no document. -/
abbrev Compose := StateT Composing Option

namespace Compose

def peek : Compose (Option Token) := do return (← get).rest.head?

def advance : Compose Unit := modify fun s => { s with rest := s.rest.drop 1 }

/-- Takes a token that has to stand here. -/
def expect (t : Token) : Compose Unit := do
  if (← peek) == some t then advance else failure

/-- Takes a token if it stands here. -/
def accept (t : Token) : Compose Bool := do
  if (← peek) == some t then
    advance
    return true
  else return false

def count (n : Nat) : Compose Unit := modify fun s => { s with size := s.size + n }

/-- Starts an anchor; gives its number and its place among all anchors. Names are numbered in order;
a name that is set again takes the next number without using it up. -/
def startAnchor (name : String) : Compose (Nat × Nat) := do
  let s ← get
  let number := s.numbers.size
  let place := s.started
  let pending : Nat × Node := (place, .broken .malformed .malformed)
  set { s with
    numbers := s.numbers.insert name number
    started := place + 1
    anchored :=
      if number < s.anchored.size then s.anchored.set! number pending
      else s.anchored.push pending }
  return (number, place)

/-- Notes the node that an anchor stands at, unless a later anchor has its number. -/
def endAnchor (number place : Nat) (n : Node) : Compose Unit :=
  modify fun s =>
    { s with
      anchored := s.anchored.modify number fun (last, node) =>
        if last = place then (last, n) else (last, node) }

def resolveTag (handle : String) (suffix : Tag) : Compose Tag := do
  if handle.isEmpty then return suffix
  else
    match (← get).handles.lookup handle with
    | some lead => return lead.append suffix
    | none => failure

/-- The name and the tag in front of a node, each at most once. -/
structure Properties where
  anchor : Option String := none
  tag : Option Tag := none

/-- Whether a container claims a type of its own. -/
def Properties.typed (p : Properties) : Bool := p.tag.any Tag.namesType

/-- Takes the properties of a node, of which there are at most `limit` left. -/
def properties (p : Properties) : (limit : Nat) → Compose Properties
  | 0 => return p
  | limit + 1 => do
    match ← peek with
    | some (.anchor name) =>
      if p.anchor.isSome then return p
      else
        advance
        properties { p with anchor := some name } limit
    | some (.tag handle suffix) =>
      if p.tag.isSome then return p
      else
        advance
        let tag ← resolveTag handle suffix
        properties { p with tag := some tag } limit
    | _ => return p

/-- A scalar that is left out. -/
def emptyScalar : Compose Node := do
  count 1
  return .scalar (scalarOf none "" .plain)

/-- A list, which never stands for a record. -/
def listOf (items : List Node) (typed : Bool) : Compose Node := do
  count 2
  return .list items none typed false

def tableOf (members : List (Node × Node)) (typed : Bool) : Compose Node := do
  count 2
  return .table members none typed

/-- Whether the next token is one of these. -/
def nextIn (ts : List Token) : Compose Bool := do
  return (← peek).any ts.contains

/-- Where a node stands. -/
inductive Place where
  /-- Inside brackets. -/
  | flow
  | block
  /-- The value of a mapping, where the entries of a sequence need not be indented. -/
  | member

mutual

def node (place : Place) : (fuel : Nat) → Compose Node
  | 0 => failure
  | fuel + 1 => do
    if let some (.aliasOf name) ← peek then
      advance
      count 1
      match (← get).numbers[name]? with
      | some number => return .aliasOf number
      | none => failure
    else
      let p ← properties {} 2
      match p.anchor with
      | none => content place p fuel
      | some name => do
        let (number, start) ← startAnchor name
        let n ← content place p fuel
        endAnchor number start n
        return n

/-- Composes what follows the properties of a node. -/
def content (place : Place) (p : Properties) : (fuel : Nat) → Compose Node
  | 0 => failure
  | fuel + 1 => do
    match ← peek, place with
    | some .blockEntry, .member => do
      let items ← blockItems false fuel
      listOf items p.typed
    | some (.scalar text style), _ => do
      advance
      count 1
      return .scalar (scalarOf p.tag text style)
    | some .flowListStart, _ => do
      advance
      let items ← flowItems true fuel
      listOf items p.typed
    | some .flowTableStart, _ => do
      advance
      let members ← flowMembers true fuel
      tableOf members p.typed
    | some .blockListStart, .block | some .blockListStart, .member => do
      advance
      let items ← blockItems true fuel
      listOf items p.typed
    | some .blockTableStart, .block | some .blockTableStart, .member => do
      advance
      let members ← blockMembers fuel
      tableOf members p.typed
    | _, _ => leftOut p

def leftOut (p : Properties) : Compose Node := do
  if p.anchor.isSome || p.tag.isSome then
    count 1
    return .scalar (scalarOf p.tag "" .plain)
  else failure

/-- Composes the entries of a sequence in a block. Unless it is `indented`, any token other than a
hyphen ends it. -/
def blockItems (indented : Bool) : (fuel : Nat) → Compose (List Node)
  | 0 => failure
  | fuel + 1 => do
    if ← accept .blockEntry then
      let isEmpty ← nextIn
        (if indented then [.blockEntry, .blockEnd] else [.blockEntry, .key, .value, .blockEnd])
      let item ← if isEmpty then emptyScalar else node .block fuel
      return item :: (← blockItems indented fuel)
    else if indented then
      expect .blockEnd
      return []
    else return []

def blockMembers : (fuel : Nat) → Compose (List (Node × Node))
  | 0 => failure
  | fuel + 1 => do
    if ← accept .blockEnd then return []
    else
      expect .key
      let key ← blockPart fuel
      let value ← if ← accept .value then blockPart fuel else emptyScalar
      return (key, value) :: (← blockMembers fuel)

/-- Composes a key or a value in a block, which may be left out. -/
def blockPart : (fuel : Nat) → Compose Node
  | 0 => failure
  | fuel + 1 => do
    if ← nextIn [.key, .value, .blockEnd] then emptyScalar else node .member fuel

/-- Composes the items between brackets, which commas separate. A key among them is a mapping of one
member. -/
def flowItems (first : Bool) : (fuel : Nat) → Compose (List Node)
  | 0 => failure
  | fuel + 1 => do
    if ← accept .flowListEnd then return []
    else
      unless first do expect .flowEntry
      if ← accept .flowListEnd then return []
      else if ← accept .key then
        let key ←
          if ← nextIn [.value, .flowEntry, .flowListEnd] then
            /- the token in place of the key is taken with it -/
            advance
            emptyScalar
          else node .flow fuel
        let value ←
          if ← accept .value then
            if ← nextIn [.flowEntry, .flowListEnd] then emptyScalar else node .flow fuel
          else emptyScalar
        let pair ← tableOf [(key, value)] false
        return pair :: (← flowItems false fuel)
      else
        let item ← node .flow fuel
        return item :: (← flowItems false fuel)

/-- Composes the members between braces, which commas separate. -/
def flowMembers (first : Bool) : (fuel : Nat) → Compose (List (Node × Node))
  | 0 => failure
  | fuel + 1 => do
    if ← accept .flowTableEnd then return []
    else
      unless first do expect .flowEntry
      if ← accept .flowTableEnd then return []
      else if ← accept .key then
        let key ←
          if ← nextIn [.value, .flowEntry, .flowTableEnd] then emptyScalar else node .flow fuel
        let value ← flowValue fuel
        return (key, value) :: (← flowMembers false fuel)
      else
        let key ← node .flow fuel
        let value ← emptyScalar
        return (key, value) :: (← flowMembers false fuel)

/-- Composes the value of a member between braces, which may be left out. -/
def flowValue : (fuel : Nat) → Compose Node
  | 0 => failure
  | fuel + 1 => do
    if ← accept .value then
      if ← nextIn [.flowEntry, .flowTableEnd] then emptyScalar else node .flow fuel
    else emptyScalar

end

/-- Takes the directives before a document. There is at most one version, of the first edition, and
at most one meaning for each handle. -/
def directives (version : Bool) : (fuel : Nat) → Compose Bool
  | 0 => failure
  | fuel + 1 => do
    match ← peek with
    | some (.versionDirective major minor) =>
      if version || major != 1 || (minor != 1 && minor != 2) then failure
      else
        advance
        directives true fuel
    | some (.tagDirective handle lead) =>
      let s ← get
      if (s.handles.lookup handle).isSome then failure
      else
        advance
        modify fun s => { s with handles := s.handles ++ [(handle, lead)] }
        let _ ← directives version fuel
        return true
    | _ => return version

/-- Composes the only document of a text. -/
def document (fuel : Nat) : Compose Node := do
  let directed ← directives false fuel
  modify fun s =>
    { s with handles := s.handles ++ [("!", .ofString "!"), ("!!", coreTag "")] }
  let marked ← accept .documentStart
  if directed && !marked then failure
  let root ← node .block fuel
  modify fun s => { s with rest := s.rest.dropWhile (· == .documentEnd) }
  if (← get).rest.isEmpty then return root else failure

end Compose

/-- A YAML text: its root, and what its aliases stand for. -/
structure Document where
  root : Node
  anchors : Anchors

/-- The tree of a text that is one YAML document. A hundred times as many aliases as it has nodes may
be followed. -/
def documentOf (text : String) : Option Document := do
  let tokens ← tokensOf text
  let bound := 4 * tokens.length + 10
  let (root, s) ← (Compose.document bound).run { rest := tokens }
  return ⟨root, s.anchored.map Prod.snd, 100 * s.size⟩

end SchemaToJava.Yaml
