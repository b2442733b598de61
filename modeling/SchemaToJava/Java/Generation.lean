import SchemaToJava.Java.ConfigClass
import SchemaToJava.Java.FileSet
import SchemaToJava.Java.FunctionsClass
import SchemaToJava.Java.Utilities
import SchemaToJava.Schema.Load

/-!
The sources of a whole package. First come the members of the package: resources, functions, enums,
the configuration and the helpers. Then the object classes that they need are generated, and those
that these need, until none is missing. An object type has at most three classes, two to write and
one to read, which bounds their number.
-/
namespace SchemaToJava.Java

open Package Schema

namespace Generation

/-- The files so far and the classes that are still needed. -/
structure Progress where
  files : FileSet := .empty
  queue : ClassQueue := .empty

/-- Takes in a finished file and the classes that it needs. -/
def Progress.accept (p : Progress) (e : Emitted) : Except GenerationError Progress := do
  return ⟨← p.files.add e.file, p.queue.pushAll e.needed⟩

def Progress.acceptAll (p : Progress) (es : List Emitted) : Except GenerationError Progress :=
  es.foldlM Progress.accept p

def objectClass (m : TypeMapper) (r : ClassRequest) : Except GenerationError Emitted := do
  match m.package.object? r.source.token with
  | none => throw (.unknownType r.source.token r.name.dotted)
  | some o =>
    match r.direction with
    | .output => OutputClass.emit m ⟨r.name, o.description, o.properties⟩
    | .input =>
      let inputShape := r.source.inputShape
      InputClass.emit m {
        name := r.name
        description := o.description
        properties := o.propertiesFor inputShape
        base := if inputShape then Library.resourceArgs else Library.invokeArgs
        inputless := !inputShape }

/-- Generates the classes that are needed until none is; there are at most `limit` of them. -/
def drain (m : TypeMapper) : (limit : Nat) → Progress → Except GenerationError Progress
  | 0, p => if p.queue.isEmpty then .ok p else .error .queueEmpty
  | limit + 1, p =>
    if p.queue.isEmpty then .ok p
    else do
      let (request, queue) ← p.queue.pop
      let emitted ← objectClass m request
      drain m limit (← { p with queue }.accept emitted)

/-- The number of classes that the object types of a package can have. -/
def classBound (p : Package) : Nat := 3 * p.types.entries.length

/-- The resources of a package, its provider first. -/
def resources (p : Package) : List Resource := p.provider.toList ++ p.resources

def enums (p : Package) : List EnumType :=
  p.types.values.filterMap fun
    | .enum e => some e
    | _ => none

def members (m : TypeMapper) (p : Progress) : Except GenerationError Progress := do
  let p ← (resources m.package).foldlM
    (fun p r => do p.acceptAll (← ResourceClass.emit m r)) p
  let p ← (← FunctionsClass.group m m.package.functions).foldlM
    (fun p entry => do p.acceptAll (← FunctionsClass.emit m entry.1 entry.2)) p
  let p ← (enums m.package).foldlM (fun p e => do p.accept (← EnumClass.emit m e)) p
  let p ← if m.package.config.isEmpty then pure p else do p.accept (← ConfigClass.emit m)
  let p ← p.accept (← Utilities.emit m)
  return { p with files := ← p.files.addAll (Utilities.bundled m) }

end Generation

/-- The files of a package. -/
def generate (package : Package) (settings : Settings) : Except GenerationError FileSet := do
  let m ← TypeMapper.make package settings
  let p ← Generation.members m {}
  return (← Generation.drain m (Generation.classBound package) p).files

/-- The files of a package that is loaded from its document, and what was noticed on the way. -/
def generateFromText (text : String) (settings : Settings) :
    Except GenerationError (FileSet × List Diagnostic) := do
  let (package, diagnostics) ← (loadPackage text).mapError .schema
  return (← generate package settings, diagnostics)

/-- The files of a package whose document is in a file; the file has no text if it cannot be
read. -/
def generateFromFile (text : Option String) (settings : Settings) :
    Except GenerationError (FileSet × List Diagnostic) :=
  match text with
  | some text => generateFromText text settings
  | none => .error .file

end SchemaToJava.Java
