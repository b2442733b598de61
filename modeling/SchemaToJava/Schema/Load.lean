import SchemaToJava.Json.Tree
import SchemaToJava.Package.Binding
import SchemaToJava.Schema.Document.Reading
import SchemaToJava.Text.Blank
import SchemaToJava.Yaml.Tree

/-!
Documents read from text, and packages loaded from it. A text whose first character other than a
blank is a brace is JSON; any other text is YAML.
-/
namespace SchemaToJava.Schema

open Reading

def jsonDepth : Nat := 127

def yamlDepth : Nat := 128

def readJson {α : Type} (read : Reader α) (text : String) : Except Fault α := do
  let document := Json.documentOf text
  let x ← (read jsonDepth document.root).result
  if document.trailing then .error .malformed else return x

def isJson (text : String) : Bool :=
  (Text.trimStart text.toList).head? == some '{'

def parseDocument (text : String) : Except ParseError PackageDocument :=
  if isJson text then
    match readJson readPackage text with
    | .ok d => .ok d
    | .error f => .error (.json f)
  else
    match Yaml.documentOf text with
    | none => .error .yaml
    | some document =>
      match (readPackage yamlDepth document.root).result document.anchors with
      | .ok d => .ok d
      | .error _ => .error .yaml

/-- Reads a document from a file, which has no text if it cannot be read. -/
def parseFile (text : Option String) : Except ParseError PackageDocument :=
  match text with
  | some text => parseDocument text
  | none => .error .unreadableFile

/-- Reads a document, merges the types that differ only by case, and validates and binds it. -/
def loadPackage (text : String) : Except SchemaError (Package × List Diagnostic) := do
  match parseDocument text with
  | .error e => .error (.parse e)
  | .ok d =>
    let (d, diagnostics) := d.mergeCaseVariants
    d.validate
    return (← d.bind, diagnostics)

end SchemaToJava.Schema
