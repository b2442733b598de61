import SchemaToJava.Json.Token

/-!
The tree of a JSON text. Tokens are taken one by one; the containers that are still open form a
stack. A token that cannot stand where it does ends the tree there.
-/
namespace SchemaToJava.Json

open Reading

/-- A container that is still open, its entries in reverse. -/
inductive Frame where
  | list (items : List Node)
  | table (members : List (Node × Node))
  /-- An object whose last member has a key and no value yet. -/
  | member (members : List (Node × Node)) (key : Node)

/-- What may come next. -/
inductive Awaited where
  | value
  /-- A value or the end of the array. -/
  | firstItem
  | key
  /-- A key or the end of the object. -/
  | firstKey
  | colon
  /-- A comma or the end of the container. -/
  | separator
deriving DecidableEq, Repr

def Frame.put (n : Node) : Frame → Frame
  | .list items => .list (n :: items)
  | .table members => .table members
  | .member members key => .table ((key, n) :: members)

/-- The node of a container that ends, or breaks off. -/
def Frame.close (brokenOff : Option Fault) : Frame → Node
  | .list items => .list items.reverse brokenOff
  | .table members => .table members.reverse brokenOff
  | .member members _ => .table members.reverse brokenOff

/-- The tree whose innermost open entry is `n` and ends there. -/
def enclose (n : Node) : List Frame → Node
  | [] => n
  | frame :: outer => enclose ((frame.put n).close none) outer

/-- The tree whose innermost open container breaks off after its last entry. -/
def breakOff (f : Fault) : List Frame → Node
  | [] => .broken f f
  | frame :: outer => enclose (frame.close (some f)) outer

/-- The tree that ends with a fault in the place where something is awaited. -/
def endWith (strict lax : Fault) (awaited : Awaited) (stack : List Frame) : Node :=
  match awaited, stack with
  | .separator, _ => breakOff strict stack
  | .key, .table members :: outer | .firstKey, .table members :: outer =>
    enclose (.table ((.broken strict lax, .broken strict lax) :: members).reverse none) outer
  | _, _ => enclose (.broken strict lax) stack

/-- A tree, and whether anything follows it. -/
structure Document where
  root : Node
  trailing : Bool

/-- Builds the tree of the tokens that follow, inside the open containers. -/
def build (awaited : Awaited) (stack : List Frame) : List Token → Document
  | [] => ⟨endWith .truncated .truncated awaited stack, false⟩
  | token :: rest =>
    let fail (strict lax : Fault) : Document := ⟨endWith strict lax awaited stack, false⟩
    /- goes on after a complete value -/
    let complete (n : Node) (stack : List Frame) : Document :=
      match stack with
      | [] => ⟨n, !rest.isEmpty⟩
      | frame :: outer => build .separator (frame.put n :: outer) rest
    match awaited, token, stack with
    | .value, .text s, _ | .firstItem, .text s, _ => complete (.scalar s) stack
    | .value, .atom s, _ | .firstItem, .atom s, _ => complete (.scalar s) stack
    | .value, .openList, _ | .firstItem, .openList, _ => build .firstItem (.list [] :: stack) rest
    | .value, .openTable, _ | .firstItem, .openTable, _ =>
      build .firstKey (.table [] :: stack) rest
    | .value, .brokenText strict lax, _ | .firstItem, .brokenText strict lax, _ => fail strict lax
    | .value, .broken strict lax, _ | .firstItem, .broken strict lax, _ => fail strict lax
    | .key, .brokenText strict lax, _ | .firstKey, .brokenText strict lax, _ => fail strict lax
    | .key, .text s, .table members :: outer | .firstKey, .text s, .table members :: outer =>
      build .colon (.member members (.scalar s) :: outer) rest
    | .colon, .colon, _ => build .value stack rest
    | .separator, .comma, .list _ :: _ => build .value stack rest
    | .separator, .comma, .table _ :: _ => build .key stack rest
    | .separator, .closeList, .list items :: outer
    | .firstItem, .closeList, .list items :: outer => complete (.list items.reverse none) outer
    | .separator, .closeTable, .table members :: outer
    | .firstKey, .closeTable, .table members :: outer =>
      complete (.table members.reverse none) outer
    | _, _, _ => fail .malformed .malformed

def documentOf (text : String) : Document := build .value [] (tokens text.toList)

end SchemaToJava.Json
