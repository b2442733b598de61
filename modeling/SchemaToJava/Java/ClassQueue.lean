import SchemaToJava.Java.GenerationError
import SchemaToJava.Java.Name

/-!
The classes that are still to be generated. While a class is written, it turns out to need others;
each object type is asked for at most once in each direction, however often it is needed. Classes
that are written come before classes that are read; within a direction the first one asked for
comes first.
-/
namespace SchemaToJava.Java

open Package

/-- The side of the wire that a class serves. -/
inductive Direction where
  /-- Arguments that are written, with a builder. -/
  | input
  /-- Results that are read. -/
  | output
deriving DecidableEq, Repr, Inhabited

/-- A class to generate from an object type. -/
structure ClassRequest where
  /-- The package of the class, as a name. -/
  package : QualifiedName
  className : String
  source : ObjectKey
  direction : Direction
deriving DecidableEq, Repr, Inhabited

namespace ClassRequest

def name (r : ClassRequest) : QualifiedName := r.package.append r.className

/-- What a class is generated for at most once. -/
def key (r : ClassRequest) : ObjectKey × Direction := (r.source, r.direction)

end ClassRequest

/-- The requests that are pending, and all those ever made. -/
structure ClassQueue where
  seen : List (ObjectKey × Direction) := []
  /-- The pending requests for classes that are written, the next one first. -/
  inputs : List ClassRequest := []
  /-- The pending requests for classes that are read, the next one first. -/
  outputs : List ClassRequest := []

namespace ClassQueue

def empty : ClassQueue := {}

/-- All pending requests in the order in which they are taken. -/
def pending (q : ClassQueue) : List ClassRequest := q.inputs ++ q.outputs

def isEmpty (q : ClassQueue) : Bool := q.inputs.isEmpty && q.outputs.isEmpty

def isNew (q : ClassQueue) (r : ClassRequest) : Bool := !q.seen.contains r.key

/-- Takes a request in, unless its like was seen before. -/
def push (q : ClassQueue) (r : ClassRequest) : ClassQueue :=
  if q.isNew r then
    match r.direction with
    | .input => { q with seen := r.key :: q.seen, inputs := q.inputs ++ [r] }
    | .output => { q with seen := r.key :: q.seen, outputs := q.outputs ++ [r] }
  else q

def pushAll (q : ClassQueue) (rs : List ClassRequest) : ClassQueue := rs.foldl push q

/-- The next request and the queue without it. -/
def pop (q : ClassQueue) : Except GenerationError (ClassRequest × ClassQueue) :=
  match q.inputs, q.outputs with
  | r :: inputs, _ => .ok (r, { q with inputs })
  | [], r :: outputs => .ok (r, { q with outputs })
  | [], [] => .error .queueEmpty

end ClassQueue

end SchemaToJava.Java
