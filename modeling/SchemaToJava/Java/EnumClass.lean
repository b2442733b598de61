import SchemaToJava.Java.SourceFile

/-!
Enum classes. Each element has an identifier made from its declared name, or else from its value;
an identifier that is taken already gets the first number that makes it free.
-/
namespace SchemaToJava.Java

open Package

namespace EnumClass

def wantedIdentifier (e : EnumElement) : String :=
  match e.name, e.value with
  | some name, _ => Identifier.ofClass name
  | none, .string s => Identifier.ofClass s
  | none, value =>
    let plain := value.text.toList.map fun c => if c == '.' || c == '-' then '_' else c
    Identifier.ofClass (String.ofList plain)

/-- The first of `base` followed by `n`, `n + 1`, … that is not used; `tries` of them are tried. -/
def firstFree (used : List String) (base : String) : (tries : Nat) → (n : Nat) → String
  | 0, n => base ++ toString n
  | tries + 1, n =>
    if used.contains (base ++ toString n) then firstFree used base tries (n + 1)
    else base ++ toString n

/-- An identifier that is not used. Numbering starts at two. -/
def freeIdentifier (used : List String) (base : String) : String :=
  if used.contains base then firstFree used base used.length 2 else base

/-- The identifiers of elements beside those that are used. -/
def identifiersBeside (used : List String) : List EnumElement → List String
  | [] => []
  | e :: rest =>
    let ident := freeIdentifier used (wantedIdentifier e)
    ident :: identifiersBeside (ident :: used) rest

def identifiers (e : EnumType) : List String := identifiersBeside [] e.elements

def elementLiteral (e : EnumType) (value : Json.Value) : Except GenerationError String :=
  let literal : Option String :=
    match e.elementType, value with
    | .string, .string s => some (StringLiteral.ofText s)
    | .bool, .bool b => some (if b then "true" else "false")
    | .int, .number (.int i) => if Json.isWord i then some (toString i) else none
    | .number, .number n => some n.toBinary64.javaText
    | _, _ => none
  match literal with
  | some literal => .ok literal
  | none => .error (.mismatchedElement e.token value e.elementType)

def elementsText (e : EnumType) : List (EnumElement × String) → Except GenerationError String
  | [] => .ok ""
  | (element, ident) :: rest => do
    let doc := Doc.text "    " element.description element.deprecation
    let literal ← elementLiteral e element.value
    let separator := if rest.isEmpty then ";" else ","
    let later ← elementsText e rest
    return doc ++ s!"    {ident}({literal}){separator}\n" ++ later

def text (owner : QualifiedName) (e : EnumType) : Drafting String := do
  let name := owner.base
  let type ← Drafting.code (primitiveShape e.elementType)
  let enumType ← Drafting.reference Library.enumType
  let objects ← Drafting.reference Library.objects
  let joiner ← Drafting.reference Library.stringJoiner
  let elements ← elementsText e (e.elements.zip (identifiers e))
  return Doc.text "" e.description none ++
    s!"@{enumType}\n" ++
    s!"public enum {name} \x7b\n" ++
    (if e.elements.isEmpty then "    ;\n" else elements) ++
    sourceLines
      ["",
        s!"    private final {type} value;",
        "",
        s!"    {name}({type} value) \x7b",
        s!"        this.value = {objects}.requireNonNull(value);",
        "    \x7d",
        "",
        s!"    @{enumType}.Converter",
        s!"    public {type} getValue() \x7b",
        "        return this.value;",
        "    \x7d",
        "",
        "    @Override",
        "    public java.lang.String toString() \x7b",
        s!"        return new {joiner}(\", \", \"{name}[\", \"]\")",
        "            .add(\"value='\" + this.value + \"'\")",
        "            .toString();",
        "    \x7d",
        "\x7d"]

def emit (m : TypeMapper) (e : EnumType) : Except GenerationError Emitted := do
  let owner ← m.enumClass e.token
  draftClass m.settings owner (text owner e)

end EnumClass

end SchemaToJava.Java
