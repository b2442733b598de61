import SchemaToJava.Schema.Document
import SchemaToJava.Json.Writing

/-!
Package documents written as JSON. Fields stand in their declared order, those of a type or an
object in front of the fields that share its braces; what is absent, false or empty is left out.
-/
namespace SchemaToJava.Schema

open Json

/-- A member that is written when there is something to write. -/
abbrev Field := Option (String × Value)

def textField (name : String) (x : Option String) : Field := x.map fun s => (name, .string s)

def valueField (name : String) (x : Option Value) : Field := x.map fun v => (name, v)

def flagField (name : String) (x : Bool) : Field := if x then some (name, .bool true) else none

def textsField (name : String) (xs : List String) : Field :=
  if xs.isEmpty then none else some (name, .array (xs.map .string))

def ofDictionary {α : Type} (write : α → Value) (d : Dictionary String α) : Value :=
  .object (d.entries.map fun entry => (entry.1, write entry.2))

def dictionaryField {α : Type} (name : String) (write : α → Value) (d : Dictionary String α) :
    Field :=
  if d.isEmpty then none else some (name, ofDictionary write d)

def membersOf (written : List Field) : List (String × Value) := written.filterMap id

mutual

def TypeExpr.written : TypeExpr → List Field
  | ⟨typeName, reference, items, additional, oneOf, plain⟩ =>
    [textField "type" typeName, textField "$ref" reference,
      valueField "items" (optionValue items),
      valueField "additionalProperties" (optionValue additional),
      valueField "oneOf" (alternatives oneOf), flagField "plain" plain]

def optionValue : Option TypeExpr → Option Value
  | none => none
  | some t => some (.object (membersOf t.written))

def alternatives : Option (List TypeExpr) → Option Value
  | none => none
  | some ts => some (.array (typeValues ts))

def typeValues : List TypeExpr → List Value
  | [] => []
  | t :: ts => .object (membersOf t.written) :: typeValues ts

end

def DefaultSources.written (d : DefaultSources) : List Field :=
  [textsField "environment" d.environment]

def DefaultSources.toValue (d : DefaultSources) : Value := .object (membersOf d.written)

/-- The fields of a property other than those of its type. -/
def PropertyEntry.written (p : PropertyEntry) : List Field :=
  [textField "description" p.description, valueField "const" p.constant,
    valueField "default" p.default,
    valueField "defaultInfo" (p.defaultSources.map DefaultSources.toValue),
    textField "deprecationMessage" p.deprecation, flagField "secret" p.secret,
    dictionaryField "language" id p.language]

def PropertyEntry.toValue (p : PropertyEntry) : Value :=
  .object (membersOf (p.type.written ++ p.written))

def ObjectEntry.written (o : ObjectEntry) : List Field :=
  [textField "description" o.description, textField "type" o.typeName,
    dictionaryField "properties" PropertyEntry.toValue o.properties,
    textsField "required" o.required]

def ObjectEntry.toValue (o : ObjectEntry) : Value := .object (membersOf o.written)

def EnumEntry.written (e : EnumEntry) : List Field :=
  [textField "name" e.name, textField "description" e.description, some ("value", e.value),
    textField "deprecationMessage" e.deprecation]

def EnumEntry.toValue (e : EnumEntry) : Value := .object (membersOf e.written)

/-- The fields of a named type other than those of its object. -/
def TypeEntry.written (t : TypeEntry) : List Field :=
  [valueField "enum" (t.elements.map fun es => .array (es.map EnumEntry.toValue))]

def TypeEntry.toValue (t : TypeEntry) : Value := .object (membersOf (t.object.written ++ t.written))

def AliasEntry.written (a : AliasEntry) : List Field :=
  [textField "name" a.name, textField "project" a.project, textField "type" a.typeToken]

def AliasEntry.toValue (a : AliasEntry) : Value := .object (membersOf a.written)

/-- The fields of a resource other than those of its object. -/
def ResourceEntry.written (r : ResourceEntry) : List Field :=
  [dictionaryField "inputProperties" PropertyEntry.toValue r.inputs,
    textsField "requiredInputs" r.requiredInputs,
    valueField "stateInputs" (r.state.map ObjectEntry.toValue),
    if r.aliases.isEmpty then none
      else some ("aliases", .array (r.aliases.map AliasEntry.toValue)),
    textField "deprecationMessage" r.deprecation, flagField "isComponent" r.isComponent]

def ResourceEntry.toValue (r : ResourceEntry) : Value :=
  .object (membersOf (r.object.written ++ r.written))

def FunctionEntry.written (f : FunctionEntry) : List Field :=
  [textField "description" f.description, valueField "inputs" (f.inputs.map ObjectEntry.toValue),
    valueField "outputs" (f.outputs.map ObjectEntry.toValue),
    textField "deprecationMessage" f.deprecation]

def FunctionEntry.toValue (f : FunctionEntry) : Value := .object (membersOf f.written)

def ConfigSection.written (c : ConfigSection) : List Field :=
  [dictionaryField "variables" PropertyEntry.toValue c.properties,
    textsField "required" c.required]

def ConfigSection.toValue (c : ConfigSection) : Value := .object (membersOf c.written)

def PackageDocument.written (d : PackageDocument) : List Field :=
  [some ("name", .string d.name), textField "version" d.version,
    textField "description" d.description, textField "homepage" d.homepage,
    textField "repository" d.repository, textField "license" d.license,
    textField "publisher" d.publisher, textField "pluginDownloadURL" d.pluginDownloadUrl,
    if d.config.isEmpty then none else some ("config", d.config.toValue),
    dictionaryField "types" TypeEntry.toValue d.types,
    valueField "provider" (d.provider.map ResourceEntry.toValue),
    dictionaryField "resources" ResourceEntry.toValue d.resources,
    dictionaryField "functions" FunctionEntry.toValue d.functions,
    dictionaryField "language" id d.language]

def PackageDocument.toValue (d : PackageDocument) : Value := .object (membersOf d.written)

def PackageDocument.text (d : PackageDocument) : String := d.toValue.text

end SchemaToJava.Schema
