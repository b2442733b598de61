import SchemaToJava.Schema.Document
import SchemaToJava.Reading.Record

/-!
Package documents read from trees. The members of a property that describe its type stand beside
its own members, and so do those of the object of a named type or of a resource.
-/
namespace SchemaToJava.Schema

open Reading

/-- The fields of a type; `type` and `types` read a type and a list of types inside it. -/
def typeFields (type : Node → Read TypeExpr) (types : Node → Read (List TypeExpr)) :
    Fields TypeExpr where
  blank := {}
  readers := [
    ⟨"type", optional (readText 0), fun x t => { t with typeName := x }⟩,
    ⟨"$ref", optional (readText 0), fun x t => { t with reference := x }⟩,
    ⟨"items", optional type, fun x t => { t with items := x }⟩,
    ⟨"additionalProperties", optional type, fun x t => { t with additional := x }⟩,
    ⟨"oneOf", optional types, fun x t => { t with oneOf := x }⟩,
    ⟨"plain", readFlag 0, fun x t => { t with plain := x }⟩]

mutual

def readType : Reader TypeExpr
  | 0 => recordIn none
  | depth + 1 => recordIn (some (typeFields (readType depth) (readTypes depth)))

def readTypes : Reader (List TypeExpr)
  | 0 => listIn none
  | depth + 1 => listIn (some (readType depth))

end

def defaultSourcesFields (depth : Nat) : Fields DefaultSources where
  blank := {}
  readers := [
    ⟨"environment", listOf readText depth, fun x d => { d with environment := x }⟩]

/-- The fields of a property other than those of its type. -/
def propertyFields (depth : Nat) : Fields PropertyEntry where
  blank := {}
  readers := [
    ⟨"description", optional (readText depth), fun x p => { p with description := x }⟩,
    ⟨"const", optional (readValue depth), fun x p => { p with constant := x }⟩,
    ⟨"default", optional (readValue depth), fun x p => { p with default := x }⟩,
    ⟨"defaultInfo", optional (recordOf defaultSourcesFields depth),
      fun x p => { p with defaultSources := x }⟩,
    ⟨"deprecationMessage", optional (readText depth), fun x p => { p with deprecation := x }⟩,
    ⟨"secret", readFlag depth, fun x p => { p with secret := x }⟩,
    ⟨"language", dictionaryOf readValue depth, fun x p => { p with language := x }⟩]

/-- The fields of a type that stands inside `depth` further containers. -/
def typeFieldsAt (depth : Nat) : Fields TypeExpr := typeFields (readType depth) (readTypes depth)

def readProperty : Reader PropertyEntry := fun depth n => do
  let (own, type) ← mergedOf (fun d => ⟨propertyFields d, typeFieldsAt d, d⟩) depth n
  return { own with type := type }

def objectFields (depth : Nat) : Fields ObjectEntry where
  blank := {}
  readers := [
    ⟨"description", optional (readText depth), fun x o => { o with description := x }⟩,
    ⟨"type", optional (readText depth), fun x o => { o with typeName := x }⟩,
    ⟨"properties", dictionaryOf readProperty depth, fun x o => { o with properties := x }⟩,
    ⟨"required", listOf readText depth, fun x o => { o with required := x }⟩]

def readObjectEntry : Reader ObjectEntry := recordOf objectFields

def enumFields (depth : Nat) : Fields EnumEntry where
  blank := {}
  readers := [
    ⟨"name", optional (readText depth), fun x e => { e with name := x }⟩,
    ⟨"description", optional (readText depth), fun x e => { e with description := x }⟩,
    ⟨"value", readValue depth, fun x e => { e with value := x }⟩,
    ⟨"deprecationMessage", optional (readText depth), fun x e => { e with deprecation := x }⟩]
  required := ["value"]

/-- The fields of a named type other than those of its object. -/
def typeEntryFields (depth : Nat) : Fields TypeEntry where
  blank := {}
  readers := [
    ⟨"enum", optional (listOf (recordOf enumFields) depth), fun x t => { t with elements := x }⟩]

def readTypeEntry : Reader TypeEntry := fun depth n => do
  let (own, object) ← mergedOf (fun d => ⟨typeEntryFields d, objectFields d, d⟩) depth n
  return { own with object := object }

def aliasFields (depth : Nat) : Fields AliasEntry where
  blank := {}
  readers := [
    ⟨"name", optional (readText depth), fun x a => { a with name := x }⟩,
    ⟨"project", optional (readText depth), fun x a => { a with project := x }⟩,
    ⟨"type", optional (readText depth), fun x a => { a with typeToken := x }⟩]

/-- The fields of a resource other than those of its object. -/
def resourceFields (depth : Nat) : Fields ResourceEntry where
  blank := {}
  readers := [
    ⟨"inputProperties", dictionaryOf readProperty depth, fun x r => { r with inputs := x }⟩,
    ⟨"requiredInputs", listOf readText depth, fun x r => { r with requiredInputs := x }⟩,
    ⟨"stateInputs", optional (readObjectEntry depth), fun x r => { r with state := x }⟩,
    ⟨"aliases", listOf (recordOf aliasFields) depth, fun x r => { r with aliases := x }⟩,
    ⟨"deprecationMessage", optional (readText depth), fun x r => { r with deprecation := x }⟩,
    ⟨"isComponent", readFlag depth, fun x r => { r with isComponent := x }⟩]

def readResource : Reader ResourceEntry := fun depth n => do
  let (own, object) ← mergedOf (fun d => ⟨resourceFields d, objectFields d, d⟩) depth n
  return { own with object := object }

def functionFields (depth : Nat) : Fields FunctionEntry where
  blank := {}
  readers := [
    ⟨"description", optional (readText depth), fun x f => { f with description := x }⟩,
    ⟨"inputs", optional (readObjectEntry depth), fun x f => { f with inputs := x }⟩,
    ⟨"outputs", optional (readObjectEntry depth), fun x f => { f with outputs := x }⟩,
    ⟨"deprecationMessage", optional (readText depth), fun x f => { f with deprecation := x }⟩]

def configFields (depth : Nat) : Fields ConfigSection where
  blank := {}
  readers := [
    ⟨"variables", dictionaryOf readProperty depth, fun x c => { c with properties := x }⟩,
    ⟨"required", listOf readText depth, fun x c => { c with required := x }⟩]

def packageFields (depth : Nat) : Fields PackageDocument where
  blank := {}
  readers := [
    ⟨"name", readText depth, fun x d => { d with name := x }⟩,
    ⟨"version", optional (readText depth), fun x d => { d with version := x }⟩,
    ⟨"description", optional (readText depth), fun x d => { d with description := x }⟩,
    ⟨"homepage", optional (readText depth), fun x d => { d with homepage := x }⟩,
    ⟨"repository", optional (readText depth), fun x d => { d with repository := x }⟩,
    ⟨"license", optional (readText depth), fun x d => { d with license := x }⟩,
    ⟨"publisher", optional (readText depth), fun x d => { d with publisher := x }⟩,
    ⟨"pluginDownloadURL", optional (readText depth), fun x d => { d with pluginDownloadUrl := x }⟩,
    ⟨"config", recordOf configFields depth, fun x d => { d with config := x }⟩,
    ⟨"types", dictionaryOf readTypeEntry depth, fun x d => { d with types := x }⟩,
    ⟨"provider", optional (readResource depth), fun x d => { d with provider := x }⟩,
    ⟨"resources", dictionaryOf readResource depth, fun x d => { d with resources := x }⟩,
    ⟨"functions", dictionaryOf (recordOf functionFields) depth,
      fun x d => { d with functions := x }⟩,
    ⟨"language", dictionaryOf readValue depth, fun x d => { d with language := x }⟩]
  required := ["name"]

def readPackage : Reader PackageDocument := recordOf packageFields

end SchemaToJava.Schema
