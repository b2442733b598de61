/-!
The lines of a text. A line ends with a line feed, or with a carriage return and a line feed; the
last line may lack its end.
-/
namespace SchemaToJava.Text

def withoutReturn (line : List Char) : List Char :=
  if line.getLast? = some '\r' then line.dropLast else line

/-- The lines of a text, where `line` holds the current line, last character first. -/
def linesAfter (line : List Char) : List Char → List (List Char)
  | [] => if line.isEmpty then [] else [line.reverse]
  | c :: rest =>
    if c = '\n' then withoutReturn line.reverse :: linesAfter [] rest
    else linesAfter (c :: line) rest

/-- The lines of a text without their ends. -/
def lines (cs : List Char) : List (List Char) := linesAfter [] cs

end SchemaToJava.Text
