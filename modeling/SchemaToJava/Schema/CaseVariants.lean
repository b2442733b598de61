import SchemaToJava.Schema.Document.References
import SchemaToJava.Text.LetterCase
import SchemaToJava.Text.Pieces

/-!
Named types whose tokens differ only by case. Target languages give such types one class name, so
types with the same body, descriptions apart, are merged into the one with the smallest token and
the references follow. Types with different bodies stay and are reported.
-/
namespace SchemaToJava.Schema

/-- What was found while merging. -/
inductive Diagnostic where
  | renamed (token kept : String)
  /-- The two types differ in their bodies. -/
  | skipped (token kept : String)
deriving DecidableEq, Repr

def Diagnostic.message : Diagnostic → String
  | renamed token kept => "info: renamed type '" ++ token ++ "' to '" ++ kept ++ "'"
  | skipped token kept =>
    "warning: skipped renaming type '" ++ token ++ "' to '" ++ kept ++ "': type bodies differ"

/-- The type and the token that replaces it, when the type is to go. -/
def Diagnostic.renaming? : Diagnostic → Option (String × String)
  | renamed token kept => some (token, kept)
  | skipped _ _ => none

def PropertyEntry.sameBody (p q : PropertyEntry) : Bool :=
  p.type == q.type && p.constant == q.constant && p.default == q.default &&
    p.defaultSources == q.defaultSources && p.deprecation == q.deprecation &&
    p.secret == q.secret && p.language.entries == q.language.entries

def EnumEntry.sameBody (e f : EnumEntry) : Bool :=
  e.name == f.name && e.value == f.value && e.deprecation == f.deprecation

/-- Whether two lists agree item by item. -/
def allAgree {α : Type} (agree : α → α → Bool) : List α → List α → Bool
  | [], [] => true
  | x :: xs, y :: ys => agree x y && allAgree agree xs ys
  | _, _ => false

def TypeEntry.sameBody (s t : TypeEntry) : Bool :=
  s.object.typeName == t.object.typeName &&
    allAgree (fun p q => p.1 == q.1 && p.2.sameBody q.2) s.object.properties.entries
      t.object.properties.entries &&
    s.object.required == t.object.required &&
    match s.elements, t.elements with
    | none, none => true
    | some es, some fs => allAgree EnumEntry.sameBody es fs
    | _, _ => false

/-- The named types in groups of tokens that agree but for case. -/
def caseGroups (types : Dictionary String TypeEntry) :
    Dictionary String (List (String × TypeEntry)) :=
  types.entries.foldl
    (fun groups entry =>
      let key := Text.lowercase entry.1
      groups.insert key ((groups.get? key).getD [] ++ [entry]))
    .empty

/-- What is found in a group: each later type against the first. -/
def groupDiagnostics : List (String × TypeEntry) → List Diagnostic
  | [] => []
  | (kept, body) :: others =>
    others.map fun (token, t) =>
      if t.sameBody body then .renamed token kept else .skipped token kept

def PackageDocument.caseDiagnostics (d : PackageDocument) : List Diagnostic :=
  (caseGroups d.types).values.flatMap groupDiagnostics

def typesReference : String := "#/types/"

/-- A token in a reference, where `/` may be written as `%2F`. -/
def unescapeToken (token : String) : String :=
  let cs := Text.replaceAll ['%', '2', 'F'] ['/'] token.toList
  String.ofList (Text.replaceAll ['%', '2', 'f'] ['/'] cs)

/-- A reference to a named type, led to the type that replaces it. -/
def redirect (renamings : List (String × String)) (reference : String) : String :=
  match Text.afterLead typesReference reference with
  | none => reference
  | some token =>
    match renamings.lookup (unescapeToken token) with
    | some kept => typesReference ++ kept
    | none => reference

/-- Merges the types that differ only by case. -/
def PackageDocument.mergeCaseVariants (d : PackageDocument) : PackageDocument × List Diagnostic :=
  let diagnostics := d.caseDiagnostics
  let renamings := diagnostics.filterMap Diagnostic.renaming?
  if renamings.isEmpty then (d, diagnostics)
  else
    let remaining := { d with types := d.types.filter fun token _ => (renamings.lookup token).isNone }
    (remaining.mapReferences (redirect renamings), diagnostics)

end SchemaToJava.Schema
