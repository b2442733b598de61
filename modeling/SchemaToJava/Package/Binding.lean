import SchemaToJava.Package.Basic
import SchemaToJava.Schema.CaseVariants
import SchemaToJava.Schema.Validation

/-!
Documents bound into packages. Every reference is followed to a resolved type, and a property that
is not required gets an optional type. Types of other packages are taken at their word.
-/
namespace SchemaToJava.Package

open Schema

abbrev Bound (α : Type) := Except SchemaError α

/-- Reports what is wrong with a piece of text in a document. -/
def unreadable {α : Type} (e : ParseError) : Bound α := .error (.parse e)

def primitiveNamed (name context : String) : Bound Primitive :=
  match Primitive.ofTypeName? name with
  | some p => .ok p
  | none => unreadable (.unknownPrimitive name context)

/-- The primitive of the elements of an enum; texts unless the document says otherwise. -/
def elementTypeOf (t : TypeEntry) : Primitive :=
  (t.object.typeName.bind Primitive.ofTypeName?).getD .string

/-- Follows a reference to a named type of the document. -/
def bindLocalType (d : PackageDocument) (token context : String) : Bound ResolvedType :=
  match d.types.get? token with
  | none => .error (.typeNotFound token context)
  | some t =>
    if t.elements.isSome then .ok (.enum token (elementTypeOf t))
    else
      match t.object.typeName with
      | none => .ok (.object ⟨token, false⟩)
      | some "object" => .ok (.object ⟨token, false⟩)
      | some name => do return .named token (.primitive (← primitiveNamed name context))

/-- Splits a text at the first `#`. -/
def splitFragment (reference : String) : Option (String × String) :=
  let cs := reference.toList
  match cs.dropWhile (· ≠ '#') with
  | [] => none
  | _ :: fragment => some (String.ofList (cs.takeWhile (· ≠ '#')), String.ofList fragment)

def builtinNamed? : String → Option Primitive
  | "Any" => some .any
  | "Archive" => some .archive
  | "Asset" => some .asset
  | "Json" => some .json
  | _ => none

def requireToken (token : String) : Bound Token :=
  match Token.parse token with
  | .ok t => .ok t
  | .error e => unreadable e

def bindReference (d : PackageDocument) (reference context : String) : Bound ResolvedType :=
  let unsupported : Bound ResolvedType := unreadable (.unsupportedReference reference context)
  match Text.afterLead "pulumi.json#/" reference with
  | some name =>
    match builtinNamed? name with
    | some p => .ok (.primitive p)
    | none => unsupported
  | none =>
    if reference = "#/provider" then .ok (.resource (Token.ofProvider d.name))
    else
      match splitFragment reference with
      | none => unsupported
      | some (origin, fragment) =>
        match Text.afterLead "/types/" fragment, Text.afterLead "/resources/" fragment with
        | some escaped, _ => do
          let token := unescapeToken escaped
          let _ ← requireToken token
          if origin.isEmpty then bindLocalType d token context
          else return .object ⟨token, false⟩
        | none, some escaped => do
          let token := unescapeToken escaped
          let _ ← requireToken token
          if origin.isEmpty && !d.resources.contains token then
            .error (.typeNotFound token context)
          else return .resource token
        | none, none => unsupported

mutual

/-- Binds a type. Alternatives count first, then a reference, then the name. -/
def bindType (d : PackageDocument) (context : String) : TypeExpr → Bound ResolvedType
  | ⟨typeName, reference, items, additional, oneOf, _⟩ =>
    match oneOf with
    | some alternatives => do return .union (← bindTypes d context alternatives)
    | none =>
      match reference with
      | some reference => bindReference d reference context
      | none =>
        match typeName with
        | none => unreadable (.missingType context)
        | some "array" =>
          match items with
          | none => unreadable (.missingType (context ++ ".items"))
          | some t => do return .array (← bindType d context t)
        | some "object" =>
          match additional with
          | none => .ok (.map (.primitive .string))
          | some t => do return .map (← bindType d context t)
        | some name => do return .primitive (← primitiveNamed name context)

def bindTypes (d : PackageDocument) (context : String) : List TypeExpr → Bound (List ResolvedType)
  | [] => .ok []
  | t :: ts => do
    let t ← bindType d context t
    return t :: (← bindTypes d context ts)

end

def javaName (p : PropertyEntry) : Option String :=
  ((p.language.get? "java").bind (·.get? "name")).bind Json.Value.string?

/-- The default of a property, when there is a literal or an environment variable for it. -/
def defaultOf (p : PropertyEntry) : Option DefaultValue :=
  let environment := (p.defaultSources.map DefaultSources.environment).getD []
  if p.default.isSome || !environment.isEmpty then some ⟨p.default, environment⟩ else none

def bindProperty (d : PackageDocument) (owner : String) (required : List String) (name : String)
    (p : PropertyEntry) : Bound Property := do
  let type ← bindType d (owner ++ "." ++ name) p.type
  return { Property.make name type (required.contains name) with
    languageName := javaName p
    secret := p.secret
    plain := p.type.plain
    default := defaultOf p
    constant := p.constant
    description := p.description
    deprecation := p.deprecation }

def bindProperties (d : PackageDocument) (owner : String) (properties : Properties)
    (required : List String) : Bound (List Property) := do
  checkRequired owner properties required
  properties.entries.mapM fun (name, p) => bindProperty d owner required name p

def bindObject (d : PackageDocument) (owner : String) (o : ObjectEntry) : Bound (List Property) :=
  bindProperties d owner o.properties o.required

def bindOptional {α β : Type} (bind : α → Bound β) : Option α → Bound (Option β)
  | none => .ok none
  | some x => do return some (← bind x)

def bindElement (e : EnumEntry) : EnumElement :=
  ⟨e.name, e.value, e.description, e.deprecation⟩

def bindTypeEntry (d : PackageDocument) (token : String) (t : TypeEntry) :
    Bound TypeDefinition := do
  let _ ← requireToken token
  match t.elements with
  | some elements =>
    return .enum ⟨token, t.object.description, elementTypeOf t, elements.map bindElement⟩
  | none =>
    match t.object.typeName with
    | some name =>
      if name = "object" then
        return .object ⟨token, t.object.description, ← bindObject d token t.object⟩
      else return .primitiveAlias token (.primitive (← primitiveNamed name token))
    | none => return .object ⟨token, t.object.description, ← bindObject d token t.object⟩

def bindResource (d : PackageDocument) (token : String) (r : ResourceEntry) : Bound Resource := do
  let _ ← requireToken token
  let properties ← bindObject d token r.object
  let inputs ← bindProperties d token r.inputs r.requiredInputs
  let state ← bindOptional (bindObject d token) r.state
  return {
    token, properties, inputs, state
    description := r.object.description
    aliases := r.aliases.map fun a => ⟨a.name, a.project, a.typeToken⟩
    deprecation := r.deprecation
    isComponent := r.isComponent
    isProvider := false }

/-- Binds the provider, which can be neither looked up nor renamed. -/
def bindProvider (d : PackageDocument) (r : ResourceEntry) : Bound Resource := do
  let token := Token.ofProvider d.name
  let properties ← bindObject d token r.object
  let inputs ← bindProperties d token r.inputs r.requiredInputs
  return {
    token, properties, inputs
    description := r.object.description
    state := none
    aliases := []
    deprecation := r.deprecation
    isComponent := false
    isProvider := true }

def bindFunction (d : PackageDocument) (token : String) (f : FunctionEntry) : Bound Function := do
  let _ ← requireToken token
  let inputs ← bindOptional (bindObject d token) f.inputs
  let outputs ← bindOptional (bindObject d token) f.outputs
  return { token, inputs, outputs, description := f.description, deprecation := f.deprecation }

/-- Binds the named types, in ascending order of their tokens. -/
def bindTypeEntries (d : PackageDocument) (types : List (String × TypeEntry)) :
    Bound (List (String × TypeDefinition)) :=
  types.mapM fun (token, t) => do return (token, ← bindTypeEntry d token t)

end SchemaToJava.Package

namespace SchemaToJava.Schema

open Package

def PackageDocument.bind (d : PackageDocument) : Except SchemaError Package := do
  let types ← bindTypeEntries d d.types.entries
  let resources ← d.resources.entries.mapM fun (token, r) => bindResource d token r
  let provider ← bindOptional (bindProvider d) d.provider
  let functions ← d.functions.entries.mapM fun (token, f) => bindFunction d token f
  let config ← bindProperties d "config" d.config.properties d.config.required
  return {
    name := d.name
    version := d.version
    description := d.description
    homepage := d.homepage
    repository := d.repository
    license := d.license
    publisher := d.publisher
    pluginDownloadUrl := d.pluginDownloadUrl
    types := .ofList types
    resources, provider, functions, config
    language := d.language }

end SchemaToJava.Schema
