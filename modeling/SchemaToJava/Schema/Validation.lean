import SchemaToJava.Json.Writing
import SchemaToJava.Schema.Document
import SchemaToJava.Schema.Token

/-!
The rules that a document has to keep before it is bound: tokens are well formed, required
properties are declared, and the elements of an enum have values of its type and differ in name
and value.
-/
namespace SchemaToJava.Schema

open Json

def checkToken (token : String) : Except SchemaError Unit :=
  match Token.parse token with
  | .ok _ => .ok ()
  | .error e => .error (.parse e)

def checkRequired {α : Type} (owner : String) (declared : Dictionary String α)
    (required : List String) : Except SchemaError Unit :=
  match required.find? fun name => !declared.contains name with
  | some name => .error (.undeclaredRequired owner name)
  | none => .ok ()

def checkObject (owner : String) (o : ObjectEntry) : Except SchemaError Unit :=
  checkRequired owner o.properties o.required

/-- Whether a value may be an element of an enum whose type has the given name. -/
def fitsElementType (typeName : Option String) (value : Value) : Bool :=
  match typeName, value with
  | some "integer", .number (.int _) => true
  | some "integer", _ => false
  | some "number", .number _ => true
  | some "number", _ => false
  | some "boolean", .bool _ => true
  | some "boolean", _ => false
  | _, .string _ => true
  | _, _ => false

/-- Checks the elements of an enum after those before them. The texts of the earlier values are
given with their places, the names without. -/
def checkElements (token : String) (typeName : Option String) (names : List String)
    (values : List (String × Nat)) (place : Nat) : List EnumEntry → Except SchemaError Unit
  | [] => .ok ()
  | e :: rest =>
    let value := e.value.text
    match e.name.filter names.contains, values.lookup value with
    | some name, _ => .error (.invalid (.repeatedEnumName name token))
    | none, some earlier => .error (.invalid (.repeatedEnumValue value token earlier place))
    | none, none =>
      if fitsElementType typeName e.value then
        checkElements token typeName (e.name.toList ++ names) ((value, place) :: values)
          (place + 1) rest
      else .error (.invalidEnumValue token value)

def checkEnum (token : String) (typeName : Option String) (elements : List EnumEntry) :
    Except SchemaError Unit :=
  if elements.isEmpty then .error (.invalid (.enumWithoutValues token))
  else checkElements token typeName [] [] 0 elements

def checkTypeEntry (token : String) (t : TypeEntry) : Except SchemaError Unit := do
  checkToken token
  match t.elements with
  | some elements => checkEnum token t.object.typeName elements
  | none => checkObject token t.object

def checkResource (token : String) (r : ResourceEntry) : Except SchemaError Unit := do
  checkToken token
  checkObject token r.object
  checkRequired token r.inputs r.requiredInputs
  match r.state with
  | some state => checkObject token state
  | none => pure ()

def checkFunction (token : String) (f : FunctionEntry) : Except SchemaError Unit := do
  checkToken token
  (f.inputs.toList ++ f.outputs.toList).forM (checkObject token)

/-- Checks all rules; the first one broken is reported. -/
def PackageDocument.validate (d : PackageDocument) : Except SchemaError Unit := do
  if d.name.isEmpty then throw (.invalid .emptyPackageName)
  d.types.entries.forM fun (token, t) => checkTypeEntry token t
  d.resources.entries.forM fun (token, r) => checkResource token r
  d.functions.entries.forM fun (token, f) => checkFunction token f
  checkRequired "config" d.config.properties d.config.required

end SchemaToJava.Schema
