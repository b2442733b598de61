import SchemaToJava.Json.Value

/-!
Trees of text that is being read. A tree holds what a text says up to its first fault, so that a
reader which walks the tree from left to right meets faults of form and faults of content in the
order in which they stand in the text. A strict reader looks at every scalar it passes; a lax one
skips a part and takes notice only of faults that keep it from finding the end of that part. An
alias stands for another tree, which a reader goes to when it reads the alias and not before.
-/
namespace SchemaToJava.Reading

/-- The kinds of fault in a text. -/
inductive Fault where
  /-- The text is not of its format. -/
  | malformed
  /-- The text ends too early. -/
  | truncated
  /-- The text is of its format and says something of the wrong kind. -/
  | mismatched
deriving DecidableEq, Repr, Inhabited

inductive Atom where
  | null
  | bool (b : Bool)
  | number (n : Json.Number)
  | string (s : String)
  /-- A number that is infinite or none, for which JSON has no numeral. -/
  | unbounded
deriving DecidableEq, Repr, Inhabited

/-- A scalar as the different readers see it. -/
structure Scalar where
  /-- What a reader of arbitrary values gets. -/
  value : Except Fault Atom
  /-- What a reader of texts gets. -/
  text : Except Fault String
  /-- What a reader of truth values gets. -/
  flag : Except Fault Bool
  /-- Whether a reader of something optional finds it absent. -/
  absent : Except Fault Bool
  /-- Whether the scalar stands for a container without entries. -/
  vacant : Bool := false
  /-- The place of a field that the scalar counts as, once nothing but its value is kept. -/
  place : Option Nat := none

namespace Scalar

/-- A scalar that is nothing but its value. -/
def ofAtom (a : Atom) : Scalar where
  value := .ok a
  text := match a with
    | .string s => .ok s
    | _ => .error .mismatched
  flag := match a with
    | .bool b => .ok b
    | _ => .error .mismatched
  absent := .ok (a == .null)

/-- A scalar whose end is known and whose content is unusable. -/
def flawed (f : Fault) : Scalar where
  value := .error f
  text := .error f
  flag := .error f
  absent := .ok false

/-- The fault of a scalar that stands where a container is wanted. -/
def refusal (s : Scalar) : Fault :=
  match s.value with
  | .ok _ => .mismatched
  | .error f => f

end Scalar

/-- A tree of text. A container that breaks off ends in the fault at which it does; where the text
breaks off inside an entry, that entry is `broken` and the last one. A container that claims a type
of its own is no arbitrary value, and only a list that is `positional` may stand for a record. -/
inductive Node where
  | scalar (s : Scalar)
  | list (items : List Node) (brokenOff : Option Fault) (typed : Bool := false)
    (positional : Bool := true)
  | table (members : List (Node × Node)) (brokenOff : Option Fault) (typed : Bool := false)
  /-- What the anchor of a number stands at. -/
  | aliasOf (anchor : Nat)
  /-- The faults that a strict and a lax reader find. -/
  | broken (strict lax : Fault)

/-- What the anchors in a text stand at, and how many aliases may still be followed. An anchor never
stands at an alias. -/
structure Anchors where
  targets : Array Node := #[]
  left : Nat := 0

/-- A step of reading. -/
abbrev Read := StateT Anchors (Except Fault)

/-- The result of a step of reading in a text with the given anchors. -/
def Read.result {α : Type} (read : Read α) (anchors : Anchors := {}) : Except Fault α :=
  read.run' anchors

/-- What a container that has been read to its end says. -/
def finished (brokenOff : Option Fault) : Except Fault Unit :=
  match brokenOff with
  | none => .ok ()
  | some f => .error f

namespace Node

/-- The node itself, or what it stands for if it is an alias. -/
def follow : Node → Read Node
  | aliasOf anchor => do
    let anchors ← get
    match anchors.targets[anchor]?, anchors.left with
    | some target, left + 1 =>
      set { anchors with left }
      return target
    | _, _ => throw .malformed
  | n => return n

mutual

def skim : Node → Except Fault Unit
  | scalar _ => .ok ()
  | list items brokenOff _ _ => do skimItems items; finished brokenOff
  | table members brokenOff _ => do skimMembers members; finished brokenOff
  | aliasOf _ => .ok ()
  | broken _ lax => .error lax

def skimItems : List Node → Except Fault Unit
  | [] => .ok ()
  | x :: rest => do skim x; skimItems rest

def skimMembers : List (Node × Node) → Except Fault Unit
  | [] => .ok ()
  | (key, x) :: rest => do skim key; skim x; skimMembers rest

end

/-- The text of a node that stands in the place of a key. -/
def keyText (n : Node) : Read String := do
  match ← n.follow with
  | scalar s => s.text
  | broken strict _ => throw strict
  | _ => throw .mismatched

/-- Reads a tree strictly and keeps the values of its scalars alone; `inner` reads the entries of a
container in this way, or is missing when containers nest too deep already. -/
def settleIn (inner : Option (Node → Read Node)) (n : Node) : Read Node := do
  match ← n.follow, inner with
  | scalar s, _ => return scalar { Scalar.ofAtom (← s.value) with place := s.place }
  | list _ _ true _, _ | table _ _ true, _ => throw .mismatched
  | list items brokenOff _ _, some inner => do
    let items ← items.mapM inner
    finished brokenOff
    return list items none
  | table members brokenOff _, some inner => do
    let members ← members.mapM fun (key, x) => do return (← inner key, ← inner x)
    finished brokenOff
    return table members none
  | broken strict _, _ => throw strict
  | _, _ => throw .malformed

/-- Reads a tree strictly and keeps the values of its scalars alone. Containers may nest to the
given depth. -/
def settle : (depth : Nat) → Node → Read Node
  | 0 => settleIn none
  | depth + 1 => settleIn (some (settle depth))

/-- Reads a tree as a JSON value; `inner` reads the entries of a container, or is missing when
containers nest too deep already. -/
def valueIn (inner : Option (Node → Read Json.Value)) (n : Node) : Read Json.Value := do
  match ← n.follow, inner with
  | scalar s, _ =>
    match ← s.value with
    | .null | .unbounded => return .null
    | .bool b => return .bool b
    | .number n => return .number n
    | .string t => return .string t
  | list _ _ true _, _ | table _ _ true, _ => throw .mismatched
  | list items brokenOff _ _, some inner => do
    let items ← items.mapM inner
    finished brokenOff
    return .array items
  | table members brokenOff _, some inner => do
    let members ← members.mapM fun (key, x) => do return (← key.keyText, ← inner x)
    finished brokenOff
    return .ofMembers members
  | broken strict _, _ => throw strict
  | _, _ => throw .malformed

/-- Reads a tree as a JSON value. Containers may nest to the given depth. -/
def toValue : (depth : Nat) → Node → Read Json.Value
  | 0 => valueIn none
  | depth + 1 => valueIn (some (toValue depth))

end Node

end SchemaToJava.Reading
