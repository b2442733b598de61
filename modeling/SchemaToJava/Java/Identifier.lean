import SchemaToJava.Text.Camel

/-!
Java identifiers made from the names of a schema. A name of ASCII letters, digits and underscores
keeps its spelling apart from the case of its first letter; any other name is camel-cased. An
identifier that Java would refuse gets an underscore: in front when it is empty or starts with a
digit, behind when it is reserved.
-/
namespace SchemaToJava.Java.Identifier

/-- The words that Java reserves, and its literals. -/
def reservedWords : List String :=
  ["abstract", "assert", "boolean", "break", "byte", "case", "catch", "char", "class", "const",
    "continue", "default", "do", "double", "else", "enum", "extends", "false", "final", "finally",
    "float", "for", "goto", "if", "implements", "import", "instanceof", "int", "interface", "long",
    "native", "new", "null", "package", "private", "protected", "public", "return", "short",
    "static", "strictfp", "super", "switch", "synchronized", "this", "throw", "throws",
    "transient", "true", "try", "var", "void", "volatile", "while", "yield"]

def isReserved (word : String) : Bool := reservedWords.contains word

/-- The identifier with the underscore that makes it acceptable. -/
def escape (ident : String) : String :=
  match ident.toList with
  | [] => "_"
  | first :: _ =>
    if first.isDigit then "_" ++ ident
    else if isReserved ident then ident ++ "_"
    else ident

def isWordChar (c : Char) : Bool := c.isAlphanum || c == '_'

def isPlain (name : String) : Bool := !name.isEmpty && name.toList.all isWordChar

def mapFirst (f : Char → Char) (name : String) : String :=
  match name.toList with
  | [] => ""
  | first :: rest => String.ofList (f first :: rest)

/-- The field, method or variable identifier for a name. -/
def ofProperty (name : String) : String :=
  escape (if isPlain name then mapFirst Char.toLower name else Text.lowerCamel name)

def ofClass (name : String) : String :=
  escape (if isPlain name then mapFirst Char.toUpper name else Text.upperCamel name)

def packageSegment (name : String) : String :=
  escape (String.ofList ((name.toList.filter isWordChar).map Char.toLower))

end SchemaToJava.Java.Identifier
