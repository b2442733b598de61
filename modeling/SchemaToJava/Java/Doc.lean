import SchemaToJava.Text.Blank
import SchemaToJava.Text.Lines
import SchemaToJava.Text.Pieces

/-!
Documentation comments in front of a Java declaration. A comment holds the lines of a description
and of a deprecation message, in which nothing can end the comment; a deprecated declaration also
gets its annotation. A declaration with neither has no comment.
-/
namespace SchemaToJava.Java

def sourceLines (lines : List String) : String := String.join (lines.map (· ++ "\n"))

namespace Doc

/-- A text in which no comment ends. -/
def commentSafe (cs : List Char) : List Char :=
  Text.replaceAll ['*', '/'] ['*', '&', '#', '4', '7', ';'] cs

def line (indent : String) (cs : List Char) : String :=
  match commentSafe (Text.trimEnd cs) with
  | [] => indent ++ " *"
  | cs => indent ++ " * " ++ String.ofList cs

def descriptionLines (indent : String) (description : Option (List Char)) : List String :=
  match description with
  | some cs => (Text.lines cs).map (line indent)
  | none => []

/-- The lines that tell of a deprecation, apart from the description before them. -/
def deprecationLines (indent : String) (apart : Bool) (deprecation : Option String) : List String :=
  match deprecation with
  | some message =>
    (if apart then [indent ++ " *"] else []) ++ (indent ++ " * @deprecated") ::
      (Text.lines message.toList).map (line indent)
  | none => []

/-- The comment, and the annotation of a deprecated declaration. -/
def text (indent : String) (description deprecation : Option String) : String :=
  let description :=
    (description.map fun d => Text.trim d.toList).filter fun cs => !cs.isEmpty
  if description.isNone && deprecation.isNone then ""
  else
    sourceLines <|
      (indent ++ "/**") :: descriptionLines indent description ++
        deprecationLines indent description.isSome deprecation ++ [indent ++ " */"] ++
        (if deprecation.isSome then [indent ++ "@Deprecated"] else [])

end Doc

end SchemaToJava.Java
