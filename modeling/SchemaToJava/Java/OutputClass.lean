import SchemaToJava.Java.Field

/-!
Classes of values that are read: immutable results that the runtime makes through an annotated
constructor. A getter never gives null: a missing collection reads as an empty one, and any other
missing value as an empty optional.
-/
namespace SchemaToJava.Java

open Package

/-- A class to read. -/
structure OutputClass where
  name : QualifiedName
  description : Option String := none
  properties : List Property

namespace OutputClass

open Drafting (code reference)

def isCollection (s : TypeShape) : Bool := s.is Library.list || s.is Library.map

/-- The type and the expression that the getter of a field returns. -/
def getterParts (f : Field) : Drafting (String × String) := do
  match f.shape.nullable? with
  | none => return (← code f.shape, s!"this.{f.ident}")
  | some inner =>
    if inner.is Library.output then return (← code inner, s!"this.{f.ident}")
    else if isCollection inner then
      let collection ← code (.ofClass inner.base)
      return (← code inner, s!"this.{f.ident} == null ? {collection}.of() : this.{f.ident}")
    else
      let optional ← reference Library.optional
      return (← code inner.optional, s!"{optional}.ofNullable(this.{f.ident})")

def getter (f : Field) : Drafting String := do
  let (type, value) ← getterParts f
  return "\n" ++ f.doc "    " ++
    sourceLines
      [s!"    public {type} {f.ident}() \x7b",
        s!"        return {value};",
        "    \x7d"]

def declarations (fields : List Field) : Drafting String := do
  let lines ← fields.mapM fun f => do return "    private final " ++ (← f.parameter) ++ ";"
  return sourceLines (if lines.isEmpty then [] else lines ++ [""])

def assignment (objects : String) (f : Field) : String :=
  if f.shape.isNullable then s!"        this.{f.ident} = {f.ident};"
  else s!"        this.{f.ident} = {objects}.requireNonNull({f.ident});"

def constructor (name customType objects : String) (fields : List Field) : Drafting String := do
  let parameters ← fields.mapM fun f => do
    let parameter ← f.parameter
    return s!"        @{customType}.Parameter({f.nameLiteral}) {parameter}"
  let parameterList :=
    if parameters.isEmpty then "" else "\n" ++ ",\n".intercalate parameters
  return sourceLines <|
    [s!"    @{customType}.Constructor", s!"    private {name}({parameterList}) \x7b"] ++
    fields.map (assignment objects) ++
    ["    \x7d"]

def fields (m : TypeMapper) (c : OutputClass) : Drafting (List Field) :=
  c.properties.mapM (Field.ofProperty m {})

def text (m : TypeMapper) (c : OutputClass) : Drafting String := do
  let name := c.name.base
  let fields ← c.fields m
  let customType ← reference Library.customType
  let objects ← reference Library.objects
  let declarations ← declarations fields
  let constructor ← constructor name customType objects fields
  let getters ← fields.mapM getter
  return Doc.text "" c.description none ++
    sourceLines [s!"@{customType}", s!"public final class {name} \x7b"] ++
    declarations ++ constructor ++ String.join getters ++ "\x7d\n"

def emit (m : TypeMapper) (c : OutputClass) : Except GenerationError Emitted :=
  draftClass m.settings c.name (c.text m)

end OutputClass

end SchemaToJava.Java
