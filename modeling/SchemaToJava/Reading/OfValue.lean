import SchemaToJava.Reading.Record

/-!
Records read from JSON values: the tree of a value is complete and holds no fault.
-/
namespace SchemaToJava.Reading

open Json

mutual

def Node.ofValue : Value → Node
  | .null => .scalar (.ofAtom .null)
  | .bool b => .scalar (.ofAtom (.bool b))
  | .number n => .scalar (.ofAtom (.number n))
  | .string s => .scalar (.ofAtom (.string s))
  | .array items => .list (Node.ofItems items) none
  | .object members => .table (Node.ofMembers members) none

def Node.ofItems : List Value → List Node
  | [] => []
  | x :: rest => Node.ofValue x :: Node.ofItems rest

def Node.ofMembers : List (String × Value) → List (Node × Node)
  | [] => []
  | (name, x) :: rest =>
    (.scalar (.ofAtom (.string name)), Node.ofValue x) :: Node.ofMembers rest

end

/-- Reads a record from a value; the fields may themselves be containers of scalars. -/
def recordOfValue {α : Type} (fields : Nat → Fields α) (v : Value) : Except Fault α :=
  (recordOf fields 2 (Node.ofValue v)).result

end SchemaToJava.Reading
