import SchemaToJava.Schema.Error
import SchemaToJava.Text.Pieces

/-!
Tokens `package:module:Name`, which name the members of packages. The module may be empty or
`index` for the root of the package. A module with a `/` keeps only what stands before the last
one.
-/
namespace SchemaToJava.Schema

structure Token where
  package : String
  /-- The module, or none for the root of the package. -/
  module : Option String
  name : String
deriving DecidableEq, Repr

namespace Token

def moduleOf (text : String) : Option String :=
  let parts := Text.piecesOf '/' text
  let folder := if parts.length ≤ 1 then text else "/".intercalate parts.dropLast
  if folder = "" ∨ folder = "index" then none else some folder

def parse (token : String) : Except ParseError Token :=
  match Text.piecesOf ':' token with
  | [package, module, name] =>
    if package.isEmpty then .error (.invalidToken token .emptyPackage)
    else if name.isEmpty then .error (.invalidToken token .emptyName)
    else .ok ⟨package, moduleOf module, name⟩
  | _ => .error (.invalidToken token .partCount)

def isProvider (t : Token) : Bool := t.package == "pulumi" && t.module == some "providers"

def ofProvider (package : String) : String := "pulumi:providers:" ++ package

end Token

end SchemaToJava.Schema
