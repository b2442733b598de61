import SchemaToJava.Java.DefaultExpression
import SchemaToJava.Java.Field

/-!
The configuration class of a package, with a getter for each of its variables.
-/
namespace SchemaToJava.Java.ConfigClass

open Package
open Drafting (code reference)

/-- What the types of variables are mapped for: optional ones stay optional. -/
def shapeOptions : ShapeOptions := { outerOptional := true, requireInitializers := true }

def getter (m : TypeMapper) (p : Property) : Drafting String := do
  let field ← Field.ofProperty m shapeOptions p
  let type ← code field.shape
  let value ← DefaultExpression.value m p field.shape (.config "config")
  return field.doc "    " ++
    sourceLines
      [s!"    public {type} {field.ident}() \x7b",
        s!"        return {value};",
        "    \x7d"]

def text (m : TypeMapper) : Drafting String := do
  let config ← reference Library.config
  let name := StringLiteral.ofText m.package.name
  let getters ← m.package.config.mapM (getter m)
  return sourceLines
      ["public final class Config \x7b",
        "",
        s!"    private static final {config} config = {config}.of({name});"] ++
    String.join getters ++ "\x7d\n"

def emit (m : TypeMapper) : Except GenerationError Emitted :=
  draftClass m.settings (m.root.append "Config") (text m)

end SchemaToJava.Java.ConfigClass
