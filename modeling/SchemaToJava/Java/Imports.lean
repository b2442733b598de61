import SchemaToJava.Dictionary
import SchemaToJava.Java.GenerationError
import SchemaToJava.Java.Name

/-!
The imports of a source file. A short name is bound to the first class of that name which the file
refers to; any other class of the same short name is written with its package. The file's own class
is bound from the start. Classes of some packages need no import.
-/
namespace SchemaToJava.Java

def defaultImplicitPackages : List String := ["java.lang"]

/-- The names that a file binds. -/
structure Imports where
  /-- The class that the file declares. -/
  owner : QualifiedName
  /-- The class that each short name stands for. -/
  names : Dictionary String QualifiedName
  /-- The static members that are imported. -/
  statics : Dictionary QualifiedName Unit
  /-- The packages whose classes need no import. -/
  implicit : List String
  /-- The classes that were referred to, each with the text that was given for it, the latest first.
  No table depends on this history; it is what can be said of the references of a file. -/
  given : List (QualifiedName × String) := []

namespace Imports

/-- The imports of a file that refers to nothing yet. -/
def forOwner (owner : QualifiedName) (implicit : List String) : Imports where
  owner := owner
  names := Dictionary.empty.insert owner.base owner
  statics := .empty
  implicit := implicit

def isImplicit (i : Imports) (name : QualifiedName) : Bool :=
  i.implicit.contains name.packageName

/-- Binds the short name of a class if it is free. -/
def claim (i : Imports) (name : QualifiedName) : Imports :=
  if i.names.contains name.base then i
  else { i with names := i.names.insert name.base name }

def bind (i : Imports) (name : QualifiedName) : Except GenerationError Imports :=
  if name.isQualified then .ok (i.claim name) else .error (.unqualifiedImport name.dotted)

/-- The class that a short name stands for. A free one stands for itself. -/
def resolve (i : Imports) (short : String) : QualifiedName :=
  (i.names.get? short).getD (.ofDotted short)

/-- The text for a class in this file: its short name if that is bound to it. -/
def textOf (i : Imports) (name : QualifiedName) : String :=
  if i.names.get? name.base = some name then name.base else name.dotted

def note (i : Imports) (name : QualifiedName) : Imports :=
  { i with given := (name, i.textOf name) :: i.given }

def reference (i : Imports) (name : QualifiedName) : Except GenerationError (String × Imports) := do
  let i ← if i.isImplicit name then .ok (i.claim name) else i.bind name
  return (i.textOf name, i.note name)

def importStatic (i : Imports) (member : QualifiedName) :
    Except GenerationError (String × Imports) :=
  if member.isQualified then
    .ok (member.base, { i with statics := i.statics.insert member () })
  else .error (.unqualifiedImport member.dotted)

/-- The dotted names of the classes to import, in ascending order. -/
def imported (i : Imports) : List String :=
  let names := i.names.values.filter fun name => name != i.owner && !i.isImplicit name
  (Dictionary.ofList (names.map fun name => (name.dotted, ()))).keys

/-- The import declarations, static ones first. -/
def text (i : Imports) : String :=
  let statics := i.statics.keys.map fun member => "import static " ++ member.dotted ++ ";\n"
  let regular := i.imported.map fun name => "import " ++ name ++ ";\n"
  let gap := if statics.isEmpty || regular.isEmpty then "" else "\n"
  String.join statics ++ gap ++ String.join regular

end Imports

end SchemaToJava.Java
