import SchemaToJava.Java.Library
import SchemaToJava.Java.Imports

/-!
Java types as trees: a class, the types it takes as parameters, and the annotations in front of it.
A shape is written against the imports of a file, fully qualified, or with short names only; it also
has a descriptor for the runtime and an index tree over the classes it is made of.
-/
namespace SchemaToJava.Java

structure TypeShape where
  base : QualifiedName
  parameters : List TypeShape := []
  /-- Annotations, which start with `@`, and comments. -/
  annotations : List String := []
deriving Inhabited

namespace TypeShape

/-- The annotation of a value that may be missing. -/
def nullableMark : String := "@javax.annotation.Nullable"

def ofClass (base : QualifiedName) : TypeShape := { base }

def object : TypeShape := ofClass Library.object

def string : TypeShape := ofClass Library.string

def list (element : TypeShape) : TypeShape := { base := Library.list, parameters := [element] }

/-- Maps from texts. -/
def map (element : TypeShape) : TypeShape :=
  { base := Library.map, parameters := [string, element] }

def either (left right : TypeShape) : TypeShape :=
  { base := Library.either, parameters := [left, right] }

def is (s : TypeShape) (base : QualifiedName) : Bool := s.base == base

/-- The optional type; one that is optional already stays as it is. -/
def optional (s : TypeShape) : TypeShape :=
  if s.is Library.optional then s else { base := Library.optional, parameters := [s] }

/-- The type of a value that may be known later; such a type stays as it is. -/
def output (s : TypeShape) : TypeShape :=
  if s.is Library.output then s else { base := Library.output, parameters := [s] }

/-- The type with one more annotation, unless it has it already. -/
def annotated (s : TypeShape) (mark : String) : TypeShape :=
  if s.annotations.contains mark then s
  else { s with annotations := s.annotations ++ [mark] }

def nullable (s : TypeShape) : TypeShape := s.annotated nullableMark

def isNullable (s : TypeShape) : Bool := s.annotations.contains nullableMark

/-- The only parameter of a type of the given class. -/
def unwrap? (wrapper : QualifiedName) (s : TypeShape) : Option TypeShape :=
  match s.parameters with
  | [inner] => if s.is wrapper then some inner else none
  | _ => none

def output? (s : TypeShape) : Option TypeShape := s.unwrap? Library.output

def optional? (s : TypeShape) : Option TypeShape := s.unwrap? Library.optional

def list? (s : TypeShape) : Option TypeShape := s.unwrap? Library.list

def nullable? (s : TypeShape) : Option TypeShape :=
  if s.isNullable then
    some { s with annotations := s.annotations.filter (· != nullableMark) }
  else none

def either? (s : TypeShape) : Option (TypeShape × TypeShape) :=
  match s.parameters with
  | [left, right] => if s.is Library.either then some (left, right) else none
  | _ => none

def withoutNullable (s : TypeShape) : TypeShape := s.nullable?.getD s

def withoutAnnotations (s : TypeShape) : TypeShape := { s with annotations := [] }

def withParameters (base : String) (parameters : List String) : String :=
  if parameters.isEmpty then base else base ++ "<" ++ ",".intercalate parameters ++ ">"

mutual

/-- The type written with the packages of all classes. -/
def qualifiedText : TypeShape → String
  | ⟨base, parameters, annotations⟩ =>
    String.join (annotations.map (· ++ " ")) ++
      withParameters base.dotted (qualifiedTexts parameters)

def qualifiedTexts : List TypeShape → List String
  | [] => []
  | s :: rest => s.qualifiedText :: qualifiedTexts rest

end

mutual

/-- The type written with short names and without annotations. -/
def simpleText : TypeShape → String
  | ⟨base, parameters, _⟩ => withParameters base.base (simpleTexts parameters)

def simpleTexts : List TypeShape → List String
  | [] => []
  | s :: rest => s.simpleText :: simpleTexts rest

end

/-- Writing against the imports of a file. What a failed attempt has imported stays imported. -/
abbrev Importing := ExceptT GenerationError (StateM Imports)

def reference (name : QualifiedName) : Importing String := do
  match (← get).reference name with
  | .ok (text, imports) =>
    set imports
    return text
  | .error e => throw e

/-- The text of an annotation or a comment in front of a type. -/
def markCode (mark : String) : Importing String := do
  match Text.afterLead "@" mark with
  | some name => return "@" ++ (← reference (.ofDotted name)) ++ " "
  | none => return mark ++ " "

mutual

def code : TypeShape → Importing String
  | ⟨base, parameters, annotations⟩ => do
    let annotations ← annotations.mapM markCode
    let base ← reference base
    let parameters ← codes parameters
    return String.join annotations ++ withParameters base parameters

def codes : List TypeShape → Importing (List String)
  | [] => return []
  | s :: rest => do
    let text ← s.code
    return text :: (← codes rest)

end

def classLiteral (s : TypeShape) : Importing String := do
  return (← reference s.base) ++ ".class"

mutual

/-- The expression that describes the type to the runtime. -/
def descriptor : TypeShape → Importing String
  | ⟨base, parameters, _⟩ => do
    let typeShape ← reference Library.typeShape
    let literal := (← reference base) ++ ".class"
    let parts ← descriptors parameters
    if parameters.isEmpty then return typeShape ++ ".of(" ++ literal ++ ")"
    else
      let added := parts.map fun part => ".addParameter(" ++ part ++ ")"
      return typeShape ++ ".builder(" ++ literal ++ ")" ++ String.join added ++ ".build()"

def descriptors : List TypeShape → Importing (List String)
  | [] => return []
  | s :: rest => do
    let text ← s.descriptor
    return text :: (← descriptors rest)

end

/-- The place of a class in a list, to whose end it is put if it is missing. -/
def placeIn (refs : List QualifiedName) (name : QualifiedName) : Nat × List QualifiedName :=
  if refs.contains name then (refs.idxOf name, refs) else (refs.length, refs ++ [name])

mutual

/-- The index tree of a type over a growing list of classes. -/
def indexTree (refs : List QualifiedName) : TypeShape → String × List QualifiedName
  | ⟨base, parameters, _⟩ =>
    let (place, refs) := placeIn refs base
    let (parts, refs) := indexTrees refs parameters
    if parameters.isEmpty then (toString place, refs)
    else ("[" ++ ",".intercalate (toString place :: parts) ++ "]", refs)

def indexTrees (refs : List QualifiedName) : List TypeShape → List String × List QualifiedName
  | [] => ([], refs)
  | s :: rest =>
    let (part, refs) := s.indexTree refs
    let (parts, refs) := indexTrees refs rest
    (part :: parts, refs)

end

/-- The classes that a type is made of, in the order in which they are first met, and a tree of
their places in brackets. -/
def reified (s : TypeShape) : List QualifiedName × String :=
  let (tree, refs) := s.indexTree []
  (refs, if s.parameters.isEmpty then "[" ++ tree ++ "]" else tree)

end TypeShape

end SchemaToJava.Java
