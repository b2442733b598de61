/-!
String literals of Java source. Quotes, backslashes and the line ends and tabs are escaped; every
other character stands for itself.
-/
namespace SchemaToJava.Java.StringLiteral

def escapeChar : Char → List Char
  | '"' => ['\\', '"']
  | '\\' => ['\\', '\\']
  | '\n' => ['\\', 'n']
  | '\r' => ['\\', 'r']
  | '\t' => ['\\', 't']
  | c => [c]

def ofText (s : String) : String :=
  String.ofList ('"' :: s.toList.flatMap escapeChar ++ ['"'])

end SchemaToJava.Java.StringLiteral
