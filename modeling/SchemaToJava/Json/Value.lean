import SchemaToJava.Floating.Layout

/-!
JSON values. The members of an object keep the order in which their names were first met; two
objects with the same members in another order are still the same value. An integer of 64 bits
stays exact and is told apart from a floating-point number of the same size.
-/
namespace SchemaToJava.Json

open Floating

inductive Number where
  | int (i : Int)
  | float (x : Binary64)
deriving DecidableEq, Repr, Inhabited

def isWord (i : Int) : Bool := -(twoTo 63 : Int) ≤ i && i < twoTo 63

namespace Number

def toBinary64 : Number → Binary64
  | int i => .ofInt i
  | float x => x

/-- The integer that a number is exactly, within the range of signed words of 64 bits. -/
def toInt? : Number → Option Int
  | int i => if isWord i then some i else none
  | float x => x.toInt?.filter fun i => -(twoTo 63 : Int) < i && i < twoTo 63

/-- Whether two numbers are of one kind and have one value. -/
def same : Number → Number → Bool
  | int i, int j => i == j
  | float x, float y => x.sameValue y
  | _, _ => false

def text : Number → String
  | int i => toString i
  | float x => x.jsonText

end Number

inductive Value where
  | null
  | bool (b : Bool)
  | number (n : Number)
  | string (s : String)
  | array (items : List Value)
  | object (members : List (String × Value))
deriving Inhabited

namespace Value

/-- Writes a member: a repeated name keeps its place and takes the new value. -/
def setMember (name : String) (value : Value) : List (String × Value) → List (String × Value)
  | [] => [(name, value)]
  | member :: rest =>
    if member.1 = name then (name, value) :: rest else member :: setMember name value rest

/-- The members given one after another, where a repeated name keeps its first place. -/
def ofMembers (members : List (String × Value)) : Value :=
  .object (members.foldl (fun acc member => setMember member.1 member.2 acc) [])

def get? (name : String) : Value → Option Value
  | object members => members.lookup name
  | _ => none

mutual

/-- Whether two values are the same up to the order of the members of objects. -/
def same : Value → Value → Bool
  | null, null => true
  | bool a, bool b => a == b
  | number a, number b => a.same b
  | string a, string b => a == b
  | array a, array b => sameItems a b
  | object a, object b => a.length == b.length && sameMembers a b
  | _, _ => false

def sameItems : List Value → List Value → Bool
  | [], [] => true
  | x :: xs, y :: ys => same x y && sameItems xs ys
  | _, _ => false

/-- Whether each of the first members has its like among the second. -/
def sameMembers : List (String × Value) → List (String × Value) → Bool
  | [], _ => true
  | (name, x) :: rest, others =>
    (match others.lookup name with
      | some y => same x y
      | none => false) && sameMembers rest others

end

instance : BEq Value := ⟨same⟩

def number? : Value → Option Number
  | number n => some n
  | _ => none

def bool? : Value → Option Bool
  | bool b => some b
  | _ => none

def string? : Value → Option String
  | string s => some s
  | _ => none

/-- Whether two values denote the same thing where numbers count by their size alone. -/
def agrees (a b : Value) : Bool :=
  match a.number?, b.number? with
  | some x, some y => x.toBinary64.sameValue y.toBinary64
  | _, _ => a.same b

end Value

end SchemaToJava.Json
