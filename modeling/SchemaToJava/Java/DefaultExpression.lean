import SchemaToJava.Java.EnumClass

/-!
Expressions that resolve the value of a property: from an argument or from the configuration, else
from the environment, else from the default of the property. A default for one of two alternatives
is tried on the left one first.
-/
namespace SchemaToJava.Java

open Package

/-- Where a value comes from in the first place. -/
inductive ValueSource where
  /-- A parameter of this name. -/
  | argument (name : String)
  /-- The configuration that a variable of this name holds. -/
  | config (name : String)
deriving DecidableEq, Repr

namespace DefaultExpression

def mismatch (property expected : String) (found : Json.Value) : GenerationError :=
  .mismatchedDefault property expected found

def literalOr (property expected : String) (found : Json.Value) (literal : Option String) :
    Drafting String :=
  match literal with
  | some literal => return literal
  | none => throw (mismatch property expected found)

def enumLiteral (e : EnumType) (property : String) (type : TypeShape) (value : Json.Value) :
    Drafting String := do
  let elements := e.elements.zip (EnumClass.identifiers e)
  match elements.find? fun element => element.1.value.agrees value with
  | some (_, ident) => return (← Drafting.code type) ++ "." ++ ident
  | none => throw (.unknownEnumDefault property e.token value)

/-- The literal of a default for a type that is no alternative. -/
def scalarLiteral (m : TypeMapper) (property : String) (type : TypeShape) (value : Json.Value) :
    Drafting String := do
  if type.is Library.boolean then
    literalOr property "a boolean" value (value.bool?.map fun b => if b then "true" else "false")
  else if type.is Library.integer then
    literalOr property "an integer" value ((value.number?.bind (·.toInt?)).map toString)
  else if type.is Library.double then
    literalOr property "a number" value (value.number?.map (·.toBinary64.javaText))
  else if type.is Library.string then
    literalOr property "a string" value (value.string?.map StringLiteral.ofText)
  else if type.is Library.jsonElement then
    let parser ← Drafting.reference Library.jsonParser
    let literal := StringLiteral.ofText value.text
    return s!"{parser}.parseString({literal})"
  else
    match m.enumByClass? type.base with
    | some e => enumLiteral e property type value
    | none => throw (.unsupportedDefault property type.simpleText)

/-- The literal of a default, and the type that it is a literal of: the alternative that it fits. -/
def resolve (m : TypeMapper) (property : String) (type : TypeShape) (value : Json.Value) :
    Drafting (TypeShape × String) := do
  match type.either? with
  | none => return (type, ← scalarLiteral m property type value)
  | some (left, right) =>
    let either ← Drafting.reference Library.either
    try
      let literal ← scalarLiteral m property left value
      pure (left, s!"{either}.ofLeft({literal})")
    catch first =>
      try
        let literal ← scalarLiteral m property right value
        pure (right, s!"{either}.ofRight({literal})")
      catch second => throw (.eitherDefault property first second)

def literal (m : TypeMapper) (property : String) (type : TypeShape) (value : Json.Value) :
    Drafting String := do
  return (← resolve m property type value).2

/-- The call that starts to resolve a value of a type. -/
def accessor (property : String) (type : TypeShape) : Drafting String := do
  let codegen ← Drafting.reference Library.codegen
  let name := StringLiteral.ofText property
  if type.is Library.boolean then return s!"{codegen}.booleanProp({name})"
  else if type.is Library.integer then return s!"{codegen}.integerProp({name})"
  else if type.is Library.double then return s!"{codegen}.doubleProp({name})"
  else if type.is Library.string then return s!"{codegen}.stringProp({name})"
  else
    let descriptor ← Drafting.descriptor type
    return s!"{codegen}.objectProp({name}, {descriptor})"

def sourceCall : ValueSource → String
  | .argument name => s!".arg({name})"
  | .config name => s!".config({name})"

def environmentCall (names : List String) : String :=
  if names.isEmpty then ""
  else ".env(" ++ ", ".intercalate (names.map StringLiteral.ofText) ++ ")"

def finalCall (source : ValueSource) (required : Bool) : String :=
  if required then ".require()"
  else
    match source with
    | .argument _ => ".getNullable()"
    | .config _ => ".get()"

/-- The expression for a parameter of a property without a default. -/
def parameterExpression (name : String) (required : Bool) : Drafting String := do
  if required then
    let objects ← Drafting.reference Library.objects
    let message := StringLiteral.ofText s!"expected parameter '{name}' to be non-null"
    return s!"{objects}.requireNonNull({name}, {message})"
  else return name

/-- The expression that goes through the source, the environment and the default in turn. -/
def resolvingExpression (m : TypeMapper) (p : Property) (target : TypeShape)
    (source : ValueSource) : Drafting String := do
  let inner := target.withoutNullable
  let inner := inner.optional?.getD inner
  let wrapped := inner.output?.isSome
  let type := (inner.output?.getD inner).withoutAnnotations
  let literal ← (p.default.bind (·.value)).mapM (resolve m p.name type)
  let call ← accessor p.name ((literal.map Prod.fst).getD type)
  let lifted := if !wrapped then "" else if p.secret then ".secret()" else ".output()"
  let environment := environmentCall ((p.default.map (·.environment)).getD [])
  let fallback := (literal.map fun l => ".def(" ++ l.2 ++ ")").getD ""
  return call ++ lifted ++ sourceCall source ++ environment ++ fallback ++
    finalCall source p.required

/-- The expression that resolves a property of the given Java type. -/
def value (m : TypeMapper) (p : Property) (target : TypeShape) (source : ValueSource) :
    Drafting String :=
  match source, p.default with
  | .argument name, none => parameterExpression name p.required
  | _, _ => resolvingExpression m p target source

end DefaultExpression

end SchemaToJava.Java
