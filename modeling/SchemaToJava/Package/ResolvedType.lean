/-!
Types whose references have been followed. A type has an input shape, in which a caller may leave
each level to be computed later, and a plain shape, in which every value is known.
-/
namespace SchemaToJava.Package

inductive Primitive where
  | bool
  | int
  | number
  | string
  | json
  | any
  /-- An asset or an archive. -/
  | asset
  | archive
deriving DecidableEq, Repr, Inhabited

namespace Primitive

def ofTypeName? : String → Option Primitive
  | "boolean" => some bool
  | "integer" => some int
  | "number" => some number
  | "string" => some string
  | _ => none

def typeName : Primitive → String
  | bool => "boolean"
  | int => "integer"
  | number => "number"
  | string => "string"
  | json => "pulumi.json#/Json"
  | any => "pulumi.json#/Any"
  | asset => "pulumi.json#/Asset"
  | archive => "pulumi.json#/Archive"

end Primitive

/-- A named object type in one of its two shapes. -/
structure ObjectKey where
  token : String
  inputShape : Bool
deriving DecidableEq, Repr, Inhabited

/-- A type without references to follow. -/
inductive ResolvedType where
  | primitive (p : Primitive)
  | array (element : ResolvedType)
  /-- A map from texts to values. -/
  | map (element : ResolvedType)
  | object (key : ObjectKey)
  | enum (token : String) (elementType : Primitive)
  | resource (token : String)
  /-- A named alias. -/
  | named (token : String) (underlying : ResolvedType)
  | union (alternatives : List ResolvedType)
  | optional (inner : ResolvedType)
  /-- A value that may be known only later. -/
  | input (inner : ResolvedType)
deriving Inhabited

namespace ResolvedType

/-- The optional type; an optional type stays as it is. -/
def asOptional : ResolvedType → ResolvedType
  | optional t => optional t
  | t => optional t

mutual

/-- The type in which every level that a caller may supply later is an input. -/
def inputShape : ResolvedType → ResolvedType
  | optional t => optional t.inputShape
  | input t => input t
  | array t => input (array t.inputShape)
  | map t => input (map t.inputShape)
  | object key => input (object { key with inputShape := true })
  | union ts => input (union (inputElements ts))
  | primitive p => input (primitive p)
  | enum token p => input (enum token p)
  | resource token => input (resource token)
  | named token t => input (named token t)

/-- The input shape without the input around the whole. -/
def inputElement : ResolvedType → ResolvedType
  | array t => array t.inputShape
  | map t => map t.inputShape
  | object key => object { key with inputShape := true }
  | union ts => union (inputElements ts)
  | primitive p => primitive p
  | enum token p => enum token p
  | resource token => resource token
  | named token t => named token t
  | optional t => optional t
  | input t => input t

def inputElements : List ResolvedType → List ResolvedType
  | [] => []
  | t :: ts => t.inputElement :: inputElements ts

end

mutual

def plainShape : ResolvedType → ResolvedType
  | input t => t.plainShape
  | optional t => optional t.plainShape
  | array t => array t.plainShape
  | map t => map t.plainShape
  | object key => object { key with inputShape := false }
  | union ts => union (plainShapes ts)
  | primitive p => primitive p
  | enum token p => enum token p
  | resource token => resource token
  | named token t => named token t

def plainShapes : List ResolvedType → List ResolvedType
  | [] => []
  | t :: ts => t.plainShape :: plainShapes ts

end

end ResolvedType

end SchemaToJava.Package
