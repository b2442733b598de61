import SchemaToJava.Java.Doc
import SchemaToJava.Java.StringLiteral
import SchemaToJava.Java.TypeMapper

/-!
Source files while they are written. A draft keeps the imports of the file, its body so far and the
classes that the body needs; whatever a failed attempt has put there stays. A finished file has a
header, its package, its imports and its body.
-/
namespace SchemaToJava.Java

open Package

/-- A file of a generated package, with its path below the root. -/
structure SourceFile where
  path : String
  text : String
deriving DecidableEq, Repr

/-- A finished file and the classes that it needs. -/
structure Emitted where
  file : SourceFile
  needed : List ClassRequest := []

def sourceRoot : String := "src/main/java"

def resourceRoot : String := "src/main/resources"

def header (toolName : String) : String :=
  sourceLines
    [s!"// *** WARNING: this file was generated by {toolName}. ***",
      "// *** Do not edit by hand unless you're certain you know what you are doing! ***"]

/-- A file that is being written. -/
structure Draft where
  imports : Imports
  body : String := ""
  /-- The classes that the body needs, in the order in which it was found to need them. -/
  needed : List ClassRequest := []

namespace Draft

def start (settings : Settings) (owner : QualifiedName) : Draft :=
  { imports := .forOwner owner settings.implicitPackages }

def className (d : Draft) : String := d.imports.owner.base

def finish (d : Draft) (settings : Settings) : Emitted :=
  let owner := d.imports.owner
  let imports := d.imports.text
  let block := if imports.isEmpty then "" else imports ++ "\n"
  { file :=
      { path := sourceRoot ++ "/" ++ owner.filePath
        text := header settings.toolName ++ "\n" ++ s!"package {owner.packageName};\n\n" ++ block ++
          d.body }
    needed := d.needed }

end Draft

/-- Writing a file. -/
abbrev Drafting := ExceptT GenerationError (StateM Draft)

namespace Drafting

/-- Writes something against the imports of the file. -/
def importing {α : Type} (act : TypeShape.Importing α) : Drafting α := do
  let draft ← get
  let (result, imports) := act.run.run draft.imports
  set { draft with imports }
  match result with
  | .ok x => return x
  | .error e => throw e

def reference (name : QualifiedName) : Drafting String := importing (TypeShape.reference name)

def code (s : TypeShape) : Drafting String := importing s.code

def descriptor (s : TypeShape) : Drafting String := importing s.descriptor

/-- The Java type of a type, whose classes the file needs from now on. -/
def shape (m : TypeMapper) (t : ResolvedType) (o : ShapeOptions) : Drafting TypeShape := do
  match m.typeShape t o with
  | .ok mapped =>
    modify fun d => { d with needed := d.needed ++ mapped.needed }
    return mapped.shape
  | .error e => throw e

def push (text : String) : Drafting Unit := modify fun d => { d with body := d.body ++ text }

end Drafting

/-- Writes the file of a class, whose body is the text that `body` gives. -/
def draftClass (settings : Settings) (owner : QualifiedName) (body : Drafting String) :
    Except GenerationError Emitted :=
  match (do Drafting.push (← body) : Drafting Unit).run.run (.start settings owner) with
  | (.ok (), draft) => .ok (draft.finish settings)
  | (.error e, _) => .error e

end SchemaToJava.Java
