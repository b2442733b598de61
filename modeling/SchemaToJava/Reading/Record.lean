import SchemaToJava.Reading.Node
import SchemaToJava.Dictionary

/-!
Readers of typed data. A reader of a container is given the reader of what the container holds, or
none when containers nest too deep already. A record is written as an object with the names of its
fields, in any order, or as a positional array of its fields in their declared order. An object may
not repeat a field; members that are no field are skipped. A dictionary may repeat a key, and the
last value counts.
-/
namespace SchemaToJava.Reading

/-- Reads something from a tree whose containers may nest to the given depth. -/
abbrev Reader (α : Type) := Nat → Node → Read α

/-- A reader where the containers are used up. -/
def belowDepth.{u} {α : Type u} (r : Nat → α) : Nat → Option α
  | 0 => none
  | depth + 1 => some (r depth)

def readText : Reader String := fun _ n => n.keyText

def readFlag : Reader Bool := fun _ n => do
  match ← n.follow with
  | .scalar s => s.flag
  | .broken strict _ => throw strict
  | _ => throw .mismatched

def readValue : Reader Json.Value := Node.toValue

def optional {α : Type} (read : Node → Read α) (n : Node) : Read (Option α) := do
  let n ← n.follow
  match n with
  | .scalar s => if ← s.absent then return none else return some (← read n)
  | _ => return some (← read n)

def listIn {α : Type} (item : Option (Node → Read α)) (n : Node) : Read (List α) := do
  match ← n.follow, item with
  | .list items brokenOff _ _, some item => do
    let items ← items.mapM item
    finished brokenOff
    return items
  | .table .., _ => throw .mismatched
  | .scalar s, _ => if s.vacant then return [] else throw s.refusal
  | .broken strict _, _ => throw strict
  | _, _ => throw .malformed

def readEntries {α : Type} (value : Node → Read α) (d : Dictionary String α) :
    List (Node × Node) → Read (Dictionary String α)
  | [] => return d
  | (key, n) :: rest => do
    let name ← key.keyText
    let x ← value n
    readEntries value (d.insert name x) rest

def dictionaryIn {α : Type} (value : Option (Node → Read α)) (n : Node) :
    Read (Dictionary String α) := do
  match ← n.follow, value with
  | .table members brokenOff _, some value => do
    let d ← readEntries value .empty members
    finished brokenOff
    return d
  | .list .., _ => throw .mismatched
  | .scalar s, _ => if s.vacant then return .empty else throw s.refusal
  | .broken strict _, _ => throw strict
  | _, _ => throw .malformed

def listOf {α : Type} (item : Reader α) : Reader (List α) := fun depth =>
  listIn (belowDepth item depth)

def dictionaryOf {α : Type} (value : Reader α) : Reader (Dictionary String α) := fun depth =>
  dictionaryIn (belowDepth value depth)

/-- How a field of a record is read, and what the record becomes by it. -/
structure FieldReader (α : Type) where
  name : String
  {Value : Type}
  read : Node → Read Value
  set : Value → α → α

structure Fields (α : Type) where
  /-- The record before any field is read. -/
  blank : α
  /-- The fields in their declared order. -/
  readers : List (FieldReader α)
  /-- The fields that may not be left out. -/
  required : List String := []

/-- The name of a field in the place of a key. A settled number counts the names from zero; beyond
them it is the name of no field. -/
def fieldName (names : List String) (key : Node) : Read (Option String) := do
  match ← key.follow with
  | .scalar s =>
    match s.text, s.place with
    | .ok name, _ => return some name
    | .error _, some place => return names[place]?
    | .error f, none => throw f
  | n => return some (← n.keyText)

namespace Fields

variable {α : Type}

def names (fields : Fields α) : List String := fields.readers.map FieldReader.name

def reader? (fields : Fields α) (name : String) : Option (FieldReader α) :=
  fields.readers.find? fun f => f.name == name

/-- Reads the members of an object into `acc`; `seen` holds the fields read before, and `places` the
names of the fields by their places. Members that are no field go to `other`. -/
def readMembers {σ : Type} (fields : Fields α) (places : List String)
    (other : σ → Option String → Node → Read σ) (seen : List String) (acc : α) (rest : σ) :
    List (Node × Node) → Read (List String × α × σ)
  | [] => return (seen, acc, rest)
  | (key, n) :: more => do
    let name ← fieldName places key
    match name.bind fields.reader? with
    | none => do
      let rest ← other rest name n
      readMembers fields places other seen acc rest more
    | some f =>
      if seen.contains f.name then throw .mismatched
      else do
        let x ← f.read n
        readMembers fields places other (f.name :: seen) (f.set x acc) rest more

/-- The fault of a record that lacks a field. -/
def requireAll (fields : Fields α) (missing : String → Bool) : Except Fault Unit :=
  if fields.required.any missing then .error .mismatched else .ok ()

def skipMember (_ : Unit) (_ : Option String) (n : Node) : Read Unit := n.skim

def readObject (fields : Fields α) (members : List (Node × Node)) (brokenOff : Option Fault) :
    Read α := do
  let (seen, acc, _) ← fields.readMembers fields.names skipMember [] fields.blank () members
  finished brokenOff
  fields.requireAll fun name => !seen.contains name
  return acc

/-- Reads the fields from an array; `left` are those that have not been read. -/
def readArray (fields : Fields α) (acc : α) (brokenOff : Option Fault) :
    (left : List (FieldReader α)) → (items : List Node) → Read α
  | [], [] => do finished brokenOff; return acc
  | [], _ :: _ => throw .malformed
  | left, [] => do
    finished brokenOff
    fields.requireAll (left.map FieldReader.name).contains
    return acc
  | f :: left, n :: items => do
    let x ← f.read n
    readArray fields (f.set x acc) brokenOff left items

end Fields

def recordIn {α : Type} (fields : Option (Fields α)) (n : Node) : Read α := do
  match ← n.follow, fields with
  | .table members brokenOff _, some fields => fields.readObject members brokenOff
  | .list _ _ _ false, _ => throw .mismatched
  | .list items brokenOff _ true, some fields =>
    fields.readArray fields.blank brokenOff fields.readers items
  | .scalar s, some fields =>
    if s.vacant then fields.readObject [] none else throw s.refusal
  | .scalar s, none => throw s.refusal
  | .broken strict _, _ => throw strict
  | _, _ => throw .malformed

def recordOf {α : Type} (fields : Nat → Fields α) : Reader α := fun depth =>
  recordIn (belowDepth fields depth)

/-- A record whose own fields stand in one object with the fields of another. -/
structure Merged (α β : Type) where
  own : Fields α
  shared : Fields β
  /-- The depth to which the members of the shared record may nest. -/
  depth : Nat

/-- Keeps a member for the shared record. The member is read strictly. -/
def Merged.keepMember {α β : Type} (m : Merged α β) (kept : List (Node × Node))
    (name : Option String) (n : Node) : Read (List (Node × Node)) := do
  let n ← n.settle m.depth
  match name with
  | some name => return (.scalar (.ofAtom (.string name)), n) :: kept
  | none => return kept

/-- Reads the two records from one object, where no number counts the fields. The members of the
shared one are looked at when the object has been read to its end, and whatever is wrong with them
is then a mismatch. -/
def Merged.readObject {α β : Type} (m : Merged α β) (members : List (Node × Node))
    (brokenOff : Option Fault) : Read (α × β) := do
  let (_, own, kept) ← m.own.readMembers [] m.keepMember [] m.own.blank [] members
  finished brokenOff
  match (m.shared.readObject kept.reverse none).result with
  | .ok shared => return (own, shared)
  | .error _ => throw .mismatched

/-- Reads two merged records, which are never written as an array. -/
def mergedIn {α β : Type} (m : Option (Merged α β)) (n : Node) : Read (α × β) := do
  match ← n.follow, m with
  | .table members brokenOff _, some m => m.readObject members brokenOff
  | .list .., _ => throw .mismatched
  | .scalar s, some m => if s.vacant then m.readObject [] none else throw s.refusal
  | .scalar s, none => throw s.refusal
  | .broken strict _, _ => throw strict
  | _, _ => throw .malformed

def mergedOf {α β : Type} (m : Nat → Merged α β) : Reader (α × β) := fun depth =>
  mergedIn (belowDepth m depth)

end SchemaToJava.Reading
