import SchemaToJava.Reading.Node

/-!
What can be wrong with a package document, as causes, and the messages that tell of them. A fault
of the text itself has no message of its own here.
-/
namespace SchemaToJava.Schema

open Reading

inductive TokenFault where
  | partCount
  | emptyPackage
  | emptyName
deriving DecidableEq, Repr

def TokenFault.message : TokenFault → String
  | partCount => "expected exactly three ':'-separated parts"
  | emptyPackage => "empty package"
  | emptyName => "empty member name"

/-- Why a document, or a piece of text in it, cannot be understood. -/
inductive ParseError where
  /-- The JSON text is not a package document. -/
  | json (fault : Fault)
  /-- The YAML text is not a package document. -/
  | yaml
  | invalidToken (token : String) (fault : TokenFault)
  /-- A reference of no known form. -/
  | unsupportedReference (reference context : String)
  /-- A type that says nothing about what it is. -/
  | missingType (context : String)
  | unknownPrimitive (name context : String)
  /-- The file cannot be read. -/
  | unreadableFile
deriving DecidableEq, Repr

/-- The message of an error; the reader's own words about a text or a file are not part of it. -/
def ParseError.message : ParseError → String
  | json _ => "JSON parsing error"
  | yaml => "YAML parsing error"
  | invalidToken token fault => "invalid token '" ++ token ++ "': " ++ fault.message
  | unsupportedReference reference context =>
    "unsupported reference '" ++ reference ++ "' in '" ++ context ++ "'"
  | missingType context => "type in '" ++ context ++ "' has no type, $ref or oneOf"
  | unknownPrimitive name context =>
    "unknown primitive type '" ++ name ++ "' in '" ++ context ++ "'"
  | unreadableFile => "IO error"

/-- A rule for documents that a document breaks. -/
inductive RuleBreach where
  | emptyPackageName
  | enumWithoutValues (token : String)
  | repeatedEnumName (name token : String)
  /-- Two elements, given by their places, have the same value. -/
  | repeatedEnumValue (value token : String) (earlier later : Nat)
deriving DecidableEq, Repr

def RuleBreach.message : RuleBreach → String
  | emptyPackageName => "package name must not be empty"
  | enumWithoutValues token => "Enum '" ++ token ++ "' declares no values"
  | repeatedEnumName name token =>
    "Duplicate enum value name '" ++ name ++ "' in enum '" ++ token ++ "'"
  | repeatedEnumValue value token earlier later =>
    "Duplicate enum value " ++ value ++ " in enum '" ++ token ++ "' (elements " ++
      toString earlier ++ " and " ++ toString later ++ ")"

/-- Why a document cannot be bound or is not valid. -/
inductive SchemaError where
  | parse (error : ParseError)
  | typeNotFound (token context : String)
  /-- A property that is required and not declared. -/
  | undeclaredRequired (owner property : String)
  | invalidEnumValue (enum value : String)
  | invalid (breach : RuleBreach)
deriving DecidableEq, Repr

def SchemaError.message : SchemaError → String
  | parse error => "parse error: " ++ error.message
  | typeNotFound token context =>
    "type '" ++ token ++ "' referenced from '" ++ context ++ "' not found"
  | undeclaredRequired owner property =>
    "required property '" ++ property ++ "' of '" ++ owner ++ "' is not declared"
  | invalidEnumValue enum value =>
    "invalid enum value '" ++ value ++ "' for enum '" ++ enum ++ "'"
  | invalid breach => "validation error: " ++ breach.message

end SchemaToJava.Schema
