import SchemaToJava.Java.ClassQueue
import SchemaToJava.Java.PackageOptions
import SchemaToJava.Java.TypeShape
import SchemaToJava.Schema.Token

/-!
The Java types of a package's types, and the classes generated for its members. Mapping a type also
tells which object classes of the package it needs.
-/
namespace SchemaToJava.Java

open Package Schema

/-- The part of a package's name in which its written classes live. -/
def inputsSegment : String := "inputs"

/-- The part in which its read classes live. -/
def outputsSegment : String := "outputs"

def enumsSegment : String := "enums"

def providerClass : String := "Provider"

/-- What a type is mapped for. -/
structure ShapeOptions where
  /-- For values that are written. -/
  input : Bool := false
  /-- An optional collection stays optional. -/
  requireInitializers : Bool := false
  /-- An optional type stays optional at its root, instead of being marked as nullable. -/
  outerOptional : Bool := false
  /-- For arguments that are all known: nothing is an input. -/
  inputless : Bool := false
deriving DecidableEq, Repr, Inhabited

/-- A package, its options for Java and the settings of the run. -/
structure TypeMapper where
  package : Package
  options : PackageOptions
  settings : Settings

/-- A Java type and the classes of the package that it needs, in the order in which it was found to
need them. -/
structure Mapped where
  shape : TypeShape
  needed : List ClassRequest := []

def primitiveShape (p : Primitive) : TypeShape :=
  .ofClass <|
    match p with
    | .bool => Library.boolean
    | .int => Library.integer
    | .number => Library.double
    | .string => Library.string
    | .json => Library.jsonElement
    | .any => Library.object
    | .asset => Library.assetOrArchive
    | .archive => Library.archive

namespace TypeMapper

def make (package : Package) (settings : Settings) : Except GenerationError TypeMapper := do
  return ⟨package, ← PackageOptions.effective settings package, settings⟩

def root (m : TypeMapper) : QualifiedName := m.options.root m.package.name

def optionsOf (m : TypeMapper) (packageName : String) : PackageOptions :=
  if packageName = m.package.name then m.options
  else (m.settings.foreignPackages.get? packageName).getD {}

def parseToken (token : String) : Except GenerationError Token :=
  (Token.parse token).mapError .parse

def moduleOfToken (m : TypeMapper) (t : Token) : QualifiedName :=
  (m.optionsOf t.package).module t.package t.module

def modulePackage (m : TypeMapper) (token : String) : Except GenerationError QualifiedName := do
  return m.moduleOfToken (← parseToken token)

/-- The class of an object type in a direction. Read classes are made from the plain shape. -/
def objectClass (m : TypeMapper) (key : ObjectKey) (direction : Direction) :
    Except GenerationError ClassRequest := do
  let t ← parseToken key.token
  let name := Identifier.ofClass t.name
  let module := m.moduleOfToken t
  match direction with
  | .output => return ⟨module.append outputsSegment, name, ⟨key.token, false⟩, .output⟩
  | .input =>
    let ending := if key.inputShape then "Args" else "PlainArgs"
    return ⟨module.append inputsSegment, name ++ ending, key, .input⟩

def enumClass (m : TypeMapper) (token : String) : Except GenerationError QualifiedName := do
  let t ← parseToken token
  return ((m.moduleOfToken t).append enumsSegment).append (Identifier.ofClass t.name)

/-- The class of a resource. The provider of a package is named by that package. -/
def resourceClass (m : TypeMapper) (token : String) : Except GenerationError QualifiedName := do
  let t ← parseToken token
  if t.isProvider then return ((m.optionsOf t.name).root t.name).append providerClass
  else return (m.moduleOfToken t).append (Identifier.ofClass t.name)

def isClassOfEnum (m : TypeMapper) (name : QualifiedName) (e : EnumType) : Bool :=
  match m.enumClass e.token with
  | .ok found => found == name
  | .error _ => false

def enumByClass? (m : TypeMapper) (name : QualifiedName) : Option EnumType :=
  m.package.types.values.findSome? fun
    | .enum e => if m.isClassOfEnum name e then some e else none
    | _ => none

def objectShape (m : TypeMapper) (o : ShapeOptions) (key : ObjectKey) :
    Except GenerationError Mapped := do
  let request ←
    if !o.input then m.objectClass { key with inputShape := false } .output
    else if o.inputless then m.objectClass { key with inputShape := false } .input
    else m.objectClass key .input
  let shape := TypeShape.ofClass request.name
  if !m.package.owns key.token then return ⟨shape, []⟩
  else if (m.package.object? key.token).isSome then return ⟨shape, [request]⟩
  else throw (.unknownType key.token "object reference")

def enumShape (m : TypeMapper) (token : String) : Except GenerationError Mapped := do
  if m.package.owns token && (m.package.enum? token).isNone then
    throw (.unknownType token "enum reference")
  return ⟨.ofClass (← m.enumClass token), []⟩

/-- The Java type of an optional value. A value that may come later, and a collection that needs no
initializer, is nullable instead. -/
def optionalShape (o : ShapeOptions) (s : TypeShape) : TypeShape :=
  let isCollection := s.is Library.list || s.is Library.map
  if s.is Library.output || (isCollection && !o.requireInitializers) then s.nullable
  else s.optional

/-- The element type of the first enum among alternatives. -/
def widened? (alternatives : List ResolvedType) : Option Primitive :=
  alternatives.findSome? fun
    | .enum _ p => some p
    | _ => none

/-- The shapes without those that are written like an earlier one. -/
def distinctShapes : List TypeShape → List TypeShape
  | [] => []
  | s :: rest =>
    s :: (distinctShapes rest).filter fun other => other.qualifiedText != s.qualifiedText

/-- The Java type of a value of one of several types. -/
def unionShape (shapes : List TypeShape) : TypeShape :=
  match distinctShapes shapes with
  | [] => .object
  | [s] => s
  | [left, right] => .either left right
  | many =>
    let names := many.map TypeShape.simpleText
    TypeShape.object.annotated ("/* " ++ " | ".intercalate names ++ " */")

mutual

/-- The Java type of a type at any level. Below an output, inputs are not wrapped again. -/
def shape (m : TypeMapper) (o : ShapeOptions) (wrapped : Bool) :
    ResolvedType → Except GenerationError Mapped
  | .input t => do
    if o.inputless || wrapped then shape m o wrapped t
    else
      let inner ← shape m { o with input := true } true t
      return { inner with shape := inner.shape.output }
  | .optional t => do
    let inner ← shape m o wrapped t
    return { inner with shape := optionalShape o inner.shape }
  | .array t => do
    let inner ← shape m { o with requireInitializers := false } wrapped t
    return { inner with shape := .list inner.shape }
  | .map t => do
    let inner ← shape m { o with requireInitializers := false } wrapped t
    return { inner with shape := .map inner.shape }
  | .object key => m.objectShape o key
  | .enum token _ => m.enumShape token
  | .resource token => do return ⟨.ofClass (← m.resourceClass token), []⟩
  | .named _ t => shape m o wrapped t
  | .union ts => do
    match if o.input then none else widened? ts with
    | some p => return ⟨primitiveShape p, []⟩
    | none =>
      let alternatives ← shapes m { o with requireInitializers := false } wrapped ts
      return ⟨unionShape (alternatives.map Mapped.shape), alternatives.flatMap Mapped.needed⟩
  | .primitive p => return ⟨primitiveShape p, []⟩

def shapes (m : TypeMapper) (o : ShapeOptions) (wrapped : Bool) :
    List ResolvedType → Except GenerationError (List Mapped)
  | [] => return []
  | t :: ts => do
    let first ← shape m o wrapped t
    return first :: (← shapes m o wrapped ts)

end

/-- The shape whose optional root, if it has one, is a nullable mark instead. -/
def nullableRoot (s : TypeShape) : TypeShape :=
  match s.optional? with
  | some inner => (s.annotations.foldl TypeShape.annotated inner).nullable
  | none => s

def typeShape (m : TypeMapper) (t : ResolvedType) (o : ShapeOptions) :
    Except GenerationError Mapped := do
  let mapped ← m.shape o false (if o.inputless then t.plainShape else t)
  return if o.outerOptional then mapped else { mapped with shape := nullableRoot mapped.shape }

end TypeMapper

end SchemaToJava.Java
