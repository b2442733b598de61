import SchemaToJava.Json.Value

/-!
The compact text of a JSON value: no blanks, members in their order, and only those characters
escaped that JSON cannot hold.
-/
namespace SchemaToJava.Json

def escapeChar (c : Char) : List Char :=
  match c with
  | '"' => ['\\', '"']
  | '\\' => ['\\', '\\']
  | '\n' => ['\\', 'n']
  | '\r' => ['\\', 'r']
  | '\t' => ['\\', 't']
  | '\x08' => ['\\', 'b']
  | '\x0c' => ['\\', 'f']
  | c =>
    if c.toNat < 0x20 then
      ['\\', 'u', '0', '0', Nat.digitChar (c.toNat / 16), Nat.digitChar (c.toNat % 16)]
    else [c]

def quote (s : String) : String :=
  String.ofList ('"' :: s.toList.flatMap escapeChar ++ ['"'])

namespace Value

mutual

/-- The compact text of a value. -/
def text : Value → String
  | null => "null"
  | bool true => "true"
  | bool false => "false"
  | number n => n.text
  | string s => quote s
  | array items => "[" ++ itemsText items ++ "]"
  | object members => "\x7b" ++ membersText members ++ "\x7d"

def itemsText : List Value → String
  | [] => ""
  | [x] => text x
  | x :: y :: rest => text x ++ "," ++ itemsText (y :: rest)

def membersText : List (String × Value) → String
  | [] => ""
  | [(name, x)] => quote name ++ ":" ++ text x
  | (name, x) :: y :: rest => quote name ++ ":" ++ text x ++ "," ++ membersText (y :: rest)

end

end Value

end SchemaToJava.Json
