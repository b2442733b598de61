import SchemaToJava.Json.Writing
import SchemaToJava.Package.ResolvedType
import SchemaToJava.Schema.Error

/-!
Why sources cannot be generated, as causes, and the messages that tell of them.
-/
namespace SchemaToJava.Java

open Package Schema

inductive GenerationError where
  /-- A text of the package, such as a token, cannot be understood. -/
  | parse (e : ParseError)
  /-- The package cannot be loaded. -/
  | schema (e : SchemaError)
  /-- A file cannot be read or written. -/
  | file
  /-- The options that a package carries for Java have the wrong form. -/
  | languageOptions
  /-- A name outside any package was to be imported. -/
  | unqualifiedImport (name : String)
  /-- A class was asked for when none was pending. -/
  | queueEmpty
  /-- Two classes have the same file. -/
  | duplicateFile (path : String)
  /-- A default is not of the kind that its type expects. -/
  | mismatchedDefault (property expected : String) (found : Json.Value)
  /-- A default is given for a type that has none. -/
  | unsupportedDefault (property type : String)
  /-- A default fits neither of two alternatives. -/
  | eitherDefault (property : String) (first second : GenerationError)
  /-- A default is no element of its enum. -/
  | unknownEnumDefault (property token : String) (value : Json.Value)
  /-- A reference to a type that the package lacks. -/
  | unknownType (type context : String)
  /-- An element of an enum has a value of another type. -/
  | mismatchedElement (token : String) (value : Json.Value) (type : Primitive)

def defaultMessage (property reason : String) : String :=
  "default value for property '" ++ property ++ "': " ++ reason

/-- The message of an error; the reader's own words about options or a file are not part of it. -/
def GenerationError.message : GenerationError → String
  | parse e => "schema parse error: " ++ e.message
  | schema e => "schema error: " ++ e.message
  | file => "IO error"
  | languageOptions => "invalid language options"
  | unqualifiedImport name => "refusing to import unqualified name '" ++ name ++ "'"
  | queueEmpty => "class queue is empty"
  | duplicateFile path => "file '" ++ path ++ "' generated more than once"
  | mismatchedDefault property expected found =>
    defaultMessage property ("expected " ++ expected ++ ", found " ++ found.text)
  | unsupportedDefault property type =>
    defaultMessage property ("defaults are not supported for type " ++ type)
  | eitherDefault property first second =>
    "default value for property '" ++ property ++ "' fits neither branch: " ++ first.message ++
      "; " ++ second.message
  | unknownEnumDefault property token value =>
    "default value " ++ value.text ++ " of property '" ++ property ++
      "' matches no element of enum '" ++ token ++ "'"
  | unknownType type context => "unknown type '" ++ type ++ "' in '" ++ context ++ "'"
  | mismatchedElement token value type =>
    "generation error: enum '" ++ token ++ "' value " ++ value.text ++ " is not a " ++
      type.typeName

end SchemaToJava.Java
