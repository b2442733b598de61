import SchemaToJava.Dictionary
import SchemaToJava.Json.Value
import SchemaToJava.Package.ResolvedType
import SchemaToJava.Text.Pieces

/-!
Bound packages: the types, resources, functions and settings of a package after every reference
has been followed.
-/
namespace SchemaToJava.Package

structure DefaultValue where
  value : Option Json.Value := none
  /-- Environment variables, the first that is set being used. -/
  environment : List String := []
deriving Inhabited

/-- A property of an object, a resource, a function or the configuration. -/
structure Property where
  name : String
  /-- The name to use in Java instead. -/
  languageName : Option String := none
  type : ResolvedType
  required : Bool
  secret : Bool := false
  /-- Whether the value is never wrapped as an input. -/
  plain : Bool := false
  default : Option DefaultValue := none
  constant : Option Json.Value := none
  description : Option String := none
  deprecation : Option String := none
deriving Inhabited

namespace Property

/-- A property of a type, which is optional unless the property is required. -/
def make (name : String) (type : ResolvedType) (required : Bool) : Property :=
  { name, required, type := if required then type else type.asOptional }

def inputType (p : Property) : ResolvedType :=
  if p.plain then p.type else p.type.inputShape

def hasDefault (p : Property) : Bool := p.default.isSome

def asInput (p : Property) : Property := { p with type := p.inputType }

end Property

structure ObjectType where
  token : String
  description : Option String
  /-- The properties in ascending order of their names. -/
  properties : List Property

/-- The properties of an object in one of its shapes. -/
def ObjectType.propertiesFor (o : ObjectType) (inputShape : Bool) : List Property :=
  if inputShape then o.properties.map Property.asInput else o.properties

structure EnumElement where
  name : Option String
  value : Json.Value
  description : Option String
  deprecation : Option String

structure EnumType where
  token : String
  description : Option String
  elementType : Primitive
  elements : List EnumElement

inductive TypeDefinition where
  | object (o : ObjectType)
  | enum (e : EnumType)
  | primitiveAlias (token : String) (underlying : ResolvedType)

/-- A former identity of a resource. -/
structure Alias where
  name : Option String
  project : Option String
  typeToken : Option String

structure Resource where
  token : String
  description : Option String
  /-- What the resource puts out. -/
  properties : List Property
  inputs : List Property
  /-- What may be given to look an existing resource up. -/
  state : Option (List Property)
  aliases : List Alias
  deprecation : Option String
  isComponent : Bool
  isProvider : Bool

structure Function where
  token : String
  description : Option String
  inputs : Option (List Property)
  outputs : Option (List Property)
  deprecation : Option String

end SchemaToJava.Package

namespace SchemaToJava

open Package

structure Package where
  name : String
  version : Option String := none
  description : Option String := none
  homepage : Option String := none
  repository : Option String := none
  license : Option String := none
  publisher : Option String := none
  pluginDownloadUrl : Option String := none
  types : Dictionary String TypeDefinition := .empty
  resources : List Resource := []
  functions : List Function := []
  config : List Property := []
  provider : Option Resource := none
  language : Dictionary String Json.Value := .empty

namespace Package

def object? (p : Package) (token : String) : Option ObjectType :=
  match p.types.get? token with
  | some (.object o) => some o
  | _ => none

def enum? (p : Package) (token : String) : Option EnumType :=
  match p.types.get? token with
  | some (.enum e) => some e
  | _ => none

/-- Whether a token names a member of this package. -/
def owns (p : Package) (token : String) : Bool :=
  (Text.piecesOf ':' token).head? == some p.name

end Package

end SchemaToJava
