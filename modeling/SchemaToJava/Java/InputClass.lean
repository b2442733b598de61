import SchemaToJava.Java.DefaultExpression
import SchemaToJava.Java.Field

/-!
Classes of values that are written: immutable holders of arguments with a builder. A setter takes
the type of its field; a value that may come later can also be given as it is, a list item by item,
and an alternative by itself.
-/
namespace SchemaToJava.Java

open Package

/-- A class to write. -/
structure InputClass where
  name : QualifiedName
  description : Option String := none
  properties : List Property
  /-- The class that it extends. -/
  base : QualifiedName
  /-- Whether no value may come later. -/
  inputless : Bool := false

namespace InputClass

open Drafting (code reference)

/-- The getter of a field. A nullable one is wrapped as optional. -/
def getter (f : Field) : Drafting String := do
  match f.shape.nullable? with
  | some inner =>
    let optional ← reference Library.optional
    let type ← code inner.optional
    return sourceLines
      [s!"    public {type} {f.ident}() \x7b",
        s!"        return {optional}.ofNullable(this.{f.ident});",
        "    \x7d",
        ""]
  | none =>
    let type ← code f.shape
    return sourceLines
      [s!"    public {type} {f.ident}() \x7b",
        s!"        return this.{f.ident};",
        "    \x7d",
        ""]

def fieldText (importMarker : String) (f : Field) : Drafting String := do
  let type ← code f.shape
  let required := if f.property.required then ", required=true" else ""
  return f.doc "    " ++
    sourceLines
      [s!"    @{importMarker}(name={f.nameLiteral}{required})",
        s!"    private {type} {f.ident};",
        ""] ++
    (← getter f)

/-- The constructors without parameters and from another instance. -/
def copyConstructors (name : String) (fields : List Field) : String :=
  sourceLines <|
    [s!"    private {name}() \x7b\x7d",
      "",
      s!"    private {name}({name} $) \x7b"] ++
    (fields.map fun f => s!"        this.{f.ident} = $.{f.ident};") ++
    ["    \x7d", ""]

def assignment (m : TypeMapper) (f : Field) : Drafting String := do
  let value ← DefaultExpression.value m f.property f.shape (.argument f.ident)
  return s!"        this.{f.ident} = {value};"

/-- The constructor from all fields, which a class without fields lacks. -/
def fieldsConstructor (m : TypeMapper) (name : String) (fields : List Field) :
    Drafting String := do
  if fields.isEmpty then return ""
  else
    let parameters ← fields.mapM fun f => do return "        " ++ (← f.parameter)
    let assignments ← fields.mapM (assignment m)
    return s!"    private {name}(\n" ++ ",\n".intercalate parameters ++ ") \x7b\n" ++
      sourceLines (assignments ++ ["    \x7d", ""])

/-- A setter for a field whose body is an expression of its own parameter. -/
def forwardingSetter (f : Field) (type value : String) : String :=
  Doc.text "        " none f.property.deprecation ++
    sourceLines
      [s!"        public Builder {f.ident}({type} {f.ident}) \x7b",
        s!"            return {f.ident}({value});",
        "        \x7d",
        ""]

def directSetter (f : Field) : Drafting String := do
  let type ← code f.shape
  return Doc.text "        " none f.property.deprecation ++
    sourceLines
      [s!"        public Builder {f.ident}({type} {f.ident}) \x7b",
        s!"            $.{f.ident} = {f.ident};",
        "            return this;",
        "        \x7d",
        ""]

def knownSetter (f : Field) : Drafting String := do
  match f.shape.withoutNullable.output? with
  | some value =>
    let output ← reference Library.output
    return forwardingSetter f (← code value) s!"{output}.of({f.ident})"
  | none => return ""

def knownShape (f : Field) : TypeShape :=
  let canonical := f.shape.withoutNullable
  canonical.output?.getD canonical

def itemsSetter (f : Field) : Drafting String := do
  match (knownShape f).list? with
  | some element =>
    let list ← reference Library.list
    return forwardingSetter f ((← code element) ++ "...") s!"{list}.of({f.ident})"
  | none => return ""

/-- The setters that take one of two alternatives, unless they cannot be told apart by class. -/
def alternativeSetters (f : Field) : Drafting String := do
  match (knownShape f).either? with
  | some (left, right) =>
    if left.base = right.base then return ""
    else
      let either ← reference Library.either
      let first ← code left
      let second ← code right
      return forwardingSetter f first s!"{either}.ofLeft({f.ident})" ++
        forwardingSetter f second s!"{either}.ofRight({f.ident})"
  | none => return ""

def setters (f : Field) : Drafting String := do
  let direct ← directSetter f
  let known ← knownSetter f
  let items ← itemsSetter f
  let alternatives ← alternativeSetters f
  return direct ++ known ++ items ++ alternatives

def requiredCheck (name missing : String) (f : Field) : List String :=
  if f.property.required && !f.property.hasDefault then
    let owner := StringLiteral.ofText name
    [s!"            if ($.{f.ident} == null) \x7b",
      s!"                throw new {missing}({owner}, {f.nameLiteral});",
      "            \x7d"]
  else []

def buildResult (name : String) (fields : List Field) : String :=
  if fields.isEmpty then "            return $;"
  else
    let arguments := ", ".intercalate (fields.map fun f => "$." ++ f.ident)
    s!"            return new {name}({arguments});"

def builder (name : String) (fields : List Field) : Drafting String := do
  let objects ← reference Library.objects
  let setters ← fields.mapM setters
  let missing ← reference Library.missingRequiredProperty
  return sourceLines
      ["    public static Builder builder() \x7b",
        "        return new Builder();",
        "    \x7d",
        "",
        s!"    public static Builder builder({name} defaults) \x7b",
        "        return new Builder(defaults);",
        "    \x7d",
        "",
        "    public static final class Builder \x7b",
        s!"        private {name} $;",
        "",
        "        public Builder() \x7b",
        s!"            $ = new {name}();",
        "        \x7d",
        "",
        s!"        public Builder({name} defaults) \x7b",
        s!"            $ = new {name}({objects}.requireNonNull(defaults));",
        "        \x7d",
        ""] ++
    String.join setters ++
    sourceLines
      (s!"        public {name} build() \x7b" :: fields.flatMap (requiredCheck name missing) ++
        [buildResult name fields, "        \x7d", "    \x7d", ""])

def fields (m : TypeMapper) (c : InputClass) : Drafting (List Field) :=
  c.properties.mapM (Field.ofProperty m { input := true, inputless := c.inputless })

def text (m : TypeMapper) (c : InputClass) : Drafting String := do
  let name := c.name.base
  let fields ← c.fields m
  let base ← reference c.base
  let importMarker ← reference Library.importMarker
  let declarations ← fields.mapM (fieldText importMarker)
  let constructor ← fieldsConstructor m name fields
  let builder ← builder name fields
  return Doc.text "" c.description none ++
    sourceLines
      [s!"public final class {name} extends {base} \x7b",
        "",
        s!"    public static final {name} Empty = new {name}();",
        ""] ++
    String.join declarations ++ copyConstructors name fields ++ constructor ++ builder ++ "\x7d\n"

def emit (m : TypeMapper) (c : InputClass) : Except GenerationError Emitted :=
  draftClass m.settings c.name (c.text m)

end InputClass

end SchemaToJava.Java
