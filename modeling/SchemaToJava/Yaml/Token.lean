/-!
The tokens of a YAML text. Block collections have no brackets, so tokens mark where their
indentation starts and ends.
-/
namespace SchemaToJava.Yaml

/-- A tag, as the bytes that it consists of. They need not be the encoding of a text. -/
structure Tag where
  bytes : List UInt8
deriving DecidableEq, Repr

namespace Tag

def ofString (s : String) : Tag := ⟨s.toUTF8.toList⟩

def append (lead suffix : Tag) : Tag := ⟨lead.bytes ++ suffix.bytes⟩

def isEmpty (t : Tag) : Bool := t.bytes.isEmpty

def isLocal (t : Tag) : Bool := t.bytes.head? == some '!'.toUInt8

/-- Whether a tag names a type of its own: it is local, and it is a text. -/
def namesType (t : Tag) : Bool :=
  t.isLocal && (String.fromUTF8? (ByteArray.mk t.bytes.toArray)).isSome

end Tag

/-- How a scalar is written. -/
inductive Style where
  | plain
  | singleQuoted
  | doubleQuoted
  | literal
  | folded
deriving DecidableEq, Repr

inductive Token where
  | versionDirective (major minor : Nat)
  | tagDirective (handle : String) (lead : Tag)
  | documentStart
  | documentEnd
  | blockListStart
  | blockTableStart
  | blockEnd
  | flowListStart
  | flowListEnd
  | flowTableStart
  | flowTableEnd
  | blockEntry
  | flowEntry
  | key
  | value
  | aliasOf (name : String)
  | anchor (name : String)
  | tag (handle : String) (suffix : Tag)
  | scalar (text : String) (style : Style)
deriving DecidableEq, Repr

end SchemaToJava.Yaml
