import SchemaToJava.Java.InputClass

/-!
Resource classes. A resource has an output for each of its properties and constructors from its
arguments; one that is neither a component nor a provider can also be looked up by its identifier.
Beside its class stand the class of its arguments and, if it declares state, the class of that.
-/
namespace SchemaToJava.Java

open Package Schema

def utilitiesClass : String := "Utilities"

/-- What a resource class extends and is configured by. -/
structure ResourceFlavor where
  base : QualifiedName
  options : QualifiedName
  /-- Whether an existing resource can be looked up. -/
  hasLookup : Bool

namespace ResourceFlavor

def ofResource (r : Resource) : ResourceFlavor :=
  if r.isProvider then ⟨Library.providerResource, Library.customResourceOptions, false⟩
  else if r.isComponent then ⟨Library.componentResource, Library.componentResourceOptions, false⟩
  else ⟨Library.customResource, Library.customResourceOptions, true⟩

end ResourceFlavor

/-- A resource and the classes generated for it. -/
structure ResourceClass where
  resource : Resource
  name : QualifiedName
  /-- The class of its arguments. -/
  arguments : QualifiedName
  /-- The class of its state. -/
  state : Option QualifiedName

namespace ResourceClass

open Drafting (code reference)

def ofResource (m : TypeMapper) (r : Resource) : Except GenerationError ResourceClass := do
  let name ← m.resourceClass r.token
  let state ← r.state.mapM fun _ => do
    let module ← m.modulePackage r.token
    return (module.append inputsSegment).append (name.base ++ "State")
  return ⟨r, name, name.sibling (name.base ++ "Args"), state⟩

def flavor (c : ResourceClass) : ResourceFlavor := .ofResource c.resource

/-- The outputs that every resource has anyway. -/
def inheritedOutputs : List String := ["id", "urn"]

def getterParts (ident : String) (isNullable : Bool) (value : TypeShape) :
    Drafting (String × String) := do
  if !isNullable then return (← code value.output, s!"this.{ident}")
  else if value.is Library.list || value.is Library.map then
    let collection ← code (.ofClass value.base)
    let type ← code value.output
    return (type, s!"this.{ident}.applyValue(v -> v == null ? {collection}.of() : v)")
  else
    let codegen ← reference Library.codegen
    let type ← code value.optional.output
    return (type, s!"{codegen}.optional(this.{ident})")

def outputText (m : TypeMapper) (p : Property) : Drafting String := do
  let field ← Field.ofProperty m {} p
  let isNullable := field.shape.isNullable
  let value := field.shape.withoutNullable
  let exportMarker ← reference Library.exportMarker
  let (refs, tree) := value.reified
  let classes ← refs.mapM fun name => do return (← code (.ofClass name)) ++ ".class"
  let refList := ",".intercalate classes
  let treeLiteral := StringLiteral.ofText tree
  let fieldType ←
    code (if isNullable then value.annotated "/* @Nullable */" else value).output
  let (type, body) ← getterParts field.ident isNullable value
  return sourceLines
      [s!"    @{exportMarker}(name={field.nameLiteral}, refs=\x7b{refList}\x7d, tree={treeLiteral})",
        s!"    private {fieldType} {field.ident};",
        ""] ++
    field.doc "    " ++
    sourceLines
      [s!"    public {type} {field.ident}() \x7b",
        s!"        return {body};",
        "    \x7d",
        ""]

/-- The type of the resource as the constructors pass it on. -/
def typeArgument (r : Resource) : Except GenerationError String := do
  if r.isProvider then return StringLiteral.ofText (← TypeMapper.parseToken r.token).name
  else return StringLiteral.ofText r.token

def lift {α : Type} (x : Except GenerationError α) : Drafting α :=
  match x with
  | .ok x => return x
  | .error e => throw e

def lookupConstructor (c : ResourceClass) (string nullable options typeArgument : String) :
    Drafting String := do
  let name := c.name.base
  let output ← reference Library.output
  let (parameter, argument) ← match c.state with
    | some state => do
      let state ← reference state
      pure (s!", @{nullable} {state} state", "state")
    | none => pure ("", "null")
  return sourceLines
    [s!"    private {name}({string} name, {output}<{string}> id{parameter}, @{nullable} {options} options) \x7b",
      s!"        super({typeArgument}, name, {argument}, makeResourceOptions(options, id));",
      "    \x7d",
      ""]

def constructors (c : ResourceClass) : Drafting String := do
  let name := c.name.base
  let string ← reference Library.string
  let nullable ← reference Library.nullable
  let arguments ← reference c.arguments
  let options ← reference c.flavor.options
  let codegen ← reference Library.codegen
  let typeArgument ← lift (typeArgument c.resource)
  let remote := if c.resource.isComponent then ", true" else ""
  let lookup ←
    if c.flavor.hasLookup then lookupConstructor c string nullable options typeArgument
    else pure ""
  return sourceLines
      [s!"    public {name}({string} name) \x7b",
        s!"        this(name, {arguments}.Empty);",
        "    \x7d",
        "",
        s!"    public {name}({string} name, @{nullable} {arguments} args) \x7b",
        "        this(name, args, null);",
        "    \x7d",
        "",
        s!"    public {name}({string} name, @{nullable} {arguments} args, @{nullable} {options} options) \x7b",
        s!"        super({typeArgument}, name, makeArgs(args, options), makeResourceOptions(options, {codegen}.empty()){remote});",
        "    \x7d",
        ""] ++
    lookup

/-- The call that sets an argument whose value is fixed. -/
def constantSetter (m : TypeMapper) (p : Property) (value : Json.Value) : Drafting String := do
  let shape ← Drafting.shape m p.inputType { input := true }
  let shape := shape.withoutNullable
  let literal ← DefaultExpression.literal m p.name (shape.output?.getD shape) value
  return s!"            .{Field.identOf p}({literal})"

def constantSetters (m : TypeMapper) : List Property → Drafting (List String)
  | [] => return []
  | p :: rest => do
    match p.constant with
    | some value =>
      let setter ← constantSetter m p value
      return setter :: (← constantSetters m rest)
    | none => constantSetters m rest

def makeArguments (m : TypeMapper) (c : ResourceClass) : Drafting String := do
  let nullable ← reference Library.nullable
  let arguments ← reference c.arguments
  let options ← reference c.flavor.options
  let setters ← constantSetters m c.resource.inputs
  return sourceLines <|
    [s!"    private static {arguments} makeArgs(@{nullable} {arguments} args, @{nullable} {options} options) \x7b",
      "        if (options != null && options.getUrn().isPresent()) \x7b",
      "            return null;",
      "        \x7d",
      s!"        var builder = args == null ? {arguments}.builder() : {arguments}.builder(args);",
      "        return builder"] ++
    setters ++
    ["            .build();", "    \x7d", ""]

/-- The expression for a former identity of the resource. -/
def aliasExpression (className : String) (a : Alias) : String :=
  let call (method : String) (value : Option String) : String :=
    match value with
    | some value => "." ++ method ++ "(" ++ StringLiteral.ofText value ++ ")"
    | none => ""
  className ++ ".builder()" ++ call "name" a.name ++ call "project" a.project ++
    call "type" a.typeToken ++ ".build()"

/-- A call with a list of expressions, one a line. -/
def listCall (method list : String) (items : List String) : List String :=
  let indented := ",\n".intercalate (items.map ("                " ++ ·))
  [s!"            .{method}({list}.of(", indented, "            ))"]

def aliasesCall (output : String) (r : Resource) : Drafting (List String) := do
  if r.aliases.isEmpty then return []
  else
    let list ← reference Library.list
    let className ← reference Library.resourceAlias
    return listCall "aliases" list <|
      r.aliases.map fun a => output ++ ".of(" ++ aliasExpression className a ++ ")"

def secretsCall (r : Resource) : Drafting (List String) := do
  let secrets := r.properties.filter (·.secret)
  if secrets.isEmpty then return []
  else
    let list ← reference Library.list
    return listCall "additionalSecretOutputs" list (secrets.map fun p => StringLiteral.ofText p.name)

def makeOptions (m : TypeMapper) (c : ResourceClass) : Drafting String := do
  let nullable ← reference Library.nullable
  let options ← reference c.flavor.options
  let output ← reference Library.output
  let string ← reference Library.string
  let utilities ← reference (m.root.append utilitiesClass)
  let download := (m.package.pluginDownloadUrl.map fun url =>
    "            .pluginDownloadURL(" ++ StringLiteral.ofText url ++ ")").toList
  let aliases ← aliasesCall output c.resource
  let secrets ← secretsCall c.resource
  return sourceLines <|
    [s!"    private static {options} makeResourceOptions(@{nullable} {options} options, @{nullable} {output}<{string}> id) \x7b",
      s!"        var defaultOptions = {options}.builder()",
      s!"            .version({utilities}.getVersion())"] ++
    download ++ aliases ++ secrets ++
    ["            .build();",
      s!"        return {options}.merge(defaultOptions, options, id);",
      "    \x7d",
      ""]

def lookup (c : ResourceClass) : Drafting String := do
  let name := c.name.base
  let string ← reference Library.string
  let nullable ← reference Library.nullable
  let output ← reference Library.output
  let options ← reference c.flavor.options
  let (parameter, argument) ← match c.state with
    | some state => do
      let state ← reference state
      pure (s!", @{nullable} {state} state", ", state")
    | none => pure ("", "")
  return sourceLines <|
    ["    /**",
      s!"     * Get an existing {name} resource's state with the given name, ID, and optional extra",
      "     * properties used to qualify the lookup.",
      "     */"] ++
    (if c.resource.deprecation.isSome then ["    @Deprecated"] else []) ++
    [s!"    public static {name} get({string} name, {output}<{string}> id{parameter}, @{nullable} {options} options) \x7b",
      s!"        return new {name}(name, id{argument}, options);",
      "    \x7d"]

def text (m : TypeMapper) (c : ResourceClass) : Drafting String := do
  let name := c.name.base
  let base ← reference c.flavor.base
  let resourceType ← reference Library.resourceType
  let own := c.resource.properties.filter fun p => !inheritedOutputs.contains p.name
  let outputs ← own.mapM (outputText m)
  let constructors ← constructors c
  let makeArguments ← makeArguments m c
  let makeOptions ← makeOptions m c
  let lookup ← if c.flavor.hasLookup then lookup c else pure ""
  let token := StringLiteral.ofText c.resource.token
  return Doc.text "" c.resource.description c.resource.deprecation ++
    sourceLines [s!"@{resourceType}(type={token})", s!"public class {name} extends {base} \x7b"] ++
    String.join outputs ++ constructors ++ makeArguments ++ makeOptions ++ lookup ++ "\x7d\n"

def argumentsClass (name : QualifiedName) (properties : List Property) : InputClass :=
  { name, properties := properties.map Property.asInput, base := Library.resourceArgs }

/-- The files of a resource: its class, that of its arguments, and that of its state. -/
def emit (m : TypeMapper) (r : Resource) : Except GenerationError (List Emitted) := do
  let c ← ofResource m r
  let resource ← draftClass m.settings c.name (c.text m)
  let arguments ← (argumentsClass c.arguments r.inputs).emit m
  match c.state, r.state with
  | some name, some properties =>
    return [resource, arguments, ← (argumentsClass name properties).emit m]
  | _, _ => return [resource, arguments]

end ResourceClass

end SchemaToJava.Java
