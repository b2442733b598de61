import SchemaToJava.Java.InputClass
import SchemaToJava.Java.OutputClass
import SchemaToJava.Java.ResourceClass

/-!
Classes of functions. The functions of a module share a class, in which each has two families of
overloads: one that gives an output, and one, with `Plain` at the end of its name, that takes known
arguments and gives a future.
-/
namespace SchemaToJava.Java

open Package Schema

structure FunctionSignature where
  function : Package.Function
  method : String
  arguments : QualifiedName
  plainArguments : QualifiedName
  result : QualifiedName

/-- The overloads of a function of one kind. -/
structure OverloadFamily where
  method : String
  /-- The type of the result. -/
  returns : String
  /-- The class of the arguments. -/
  arguments : String
  /-- The runtime's method to call. -/
  call : String

namespace FunctionsClass

open Drafting (code descriptor reference)

/-- The class that holds the functions of a token's module. -/
def className (m : TypeMapper) (token : String) : Except GenerationError QualifiedName := do
  let t ← TypeMapper.parseToken token
  return (m.moduleOfToken t).append (Identifier.ofClass (t.module.getD t.package) ++ "Functions")

/-- The classes of a function. A function without arguments or result uses those of the runtime. -/
def signature (m : TypeMapper) (f : Package.Function) :
    Except GenerationError FunctionSignature := do
  let t ← TypeMapper.parseToken f.token
  let name := Identifier.ofClass t.name
  let module := m.moduleOfToken t
  let inputs := module.append inputsSegment
  return {
    function := f
    method := Identifier.ofProperty t.name
    arguments := if f.inputs.isSome then inputs.append (name ++ "Args") else Library.invokeArgs
    plainArguments :=
      if f.inputs.isSome then inputs.append (name ++ "PlainArgs") else Library.invokeArgs
    result :=
      if f.outputs.isSome then (module.append outputsSegment).append (name ++ "Result")
      else Library.void }

def isCallableWithoutArguments (f : Package.Function) : Bool :=
  match f.inputs with
  | some inputs => inputs.all fun p => !p.required
  | none => true

def argumentFiles (m : TypeMapper) (s : FunctionSignature) :
    Except GenerationError (List Emitted) := do
  let arguments ← match s.function.inputs with
    | some inputs =>
      let properties := inputs.map Property.asInput
      let base := Library.invokeArgs
      let first ← ({ name := s.arguments, properties, base } : InputClass).emit m
      let second ← InputClass.emit m
        { name := s.plainArguments, properties, base, inputless := true }
      pure [first, second]
    | none => pure []
  let results ← match s.function.outputs with
    | some properties => do pure [← ({ name := s.result, properties } : OutputClass).emit m]
    | none => pure []
  return arguments ++ results

def doc (f : Package.Function) : String := Doc.text "    " f.description f.deprecation

def emptyOverload (f : Package.Function) (invokeOptions : String) (family : OverloadFamily) :
    String :=
  doc f ++
    sourceLines
      [s!"    public static {family.returns} {family.method}() \x7b",
        s!"        return {family.method}({family.arguments}.Empty, {invokeOptions}.Empty);",
        "    \x7d",
        ""]

def argumentsOverload (f : Package.Function) (invokeOptions : String) (family : OverloadFamily) :
    String :=
  doc f ++
    sourceLines
      [s!"    public static {family.returns} {family.method}({family.arguments} args) \x7b",
        s!"        return {family.method}(args, {invokeOptions}.Empty);",
        "    \x7d",
        ""]

/-- The overload with arguments and options, which makes the call. -/
def optionsOverload (f : Package.Function) (invokeOptions callee call : String)
    (family : OverloadFamily) : String :=
  doc f ++
    sourceLines
      [s!"    public static {family.returns} {family.method}({family.arguments} args, {invokeOptions} options) \x7b",
        s!"        return {callee}.{family.call}({call});",
        "    \x7d",
        ""]

def overloads (m : TypeMapper) (s : FunctionSignature) : Drafting String := do
  let output ← reference Library.output
  let future ← reference Library.completableFuture
  let invokeOptions ← reference Library.invokeOptions
  let deployment ← reference Library.deployment
  let utilities ← reference (m.root.append utilitiesClass)
  let result ← code (.ofClass s.result)
  let resultDescriptor ← descriptor (.ofClass s.result)
  let arguments ← reference s.arguments
  let plainArguments ← reference s.plainArguments
  let token := StringLiteral.ofText s.function.token
  let families : List OverloadFamily :=
    [⟨s.method, s!"{output}<{result}>", arguments, "invoke"⟩,
      ⟨s.method ++ "Plain", s!"{future}<{result}>", plainArguments, "invokeAsync"⟩]
  let callee := deployment ++ ".getInstance()"
  let call := s!"{token}, {resultDescriptor}, args, {utilities}.withVersion(options)"
  let empty :=
    if isCallableWithoutArguments s.function then
      families.map (emptyOverload s.function invokeOptions)
    else []
  return String.join <|
    empty ++ families.map (argumentsOverload s.function invokeOptions) ++
      families.map (optionsOverload s.function invokeOptions callee call)

def text (m : TypeMapper) (name : QualifiedName) (signatures : List FunctionSignature) :
    Drafting String := do
  let overloads ← signatures.mapM (overloads m)
  return s!"public final class {name.base} \x7b\n" ++ String.join overloads ++ "\x7d\n"

/-- The files of the functions of a module: their class, and those of their arguments and
results. -/
def emit (m : TypeMapper) (name : QualifiedName) (functions : List Package.Function) :
    Except GenerationError (List Emitted) := do
  let members ← functions.mapM fun f => do
    let s ← signature m f
    return (s, ← argumentFiles m s)
  let main ← draftClass m.settings name (text m name (members.map Prod.fst))
  return main :: members.flatMap Prod.snd

/-- The functions of a package by the classes that hold them, which stand in the order of their
names. -/
def group (m : TypeMapper) (functions : List Package.Function) :
    Except GenerationError (List (QualifiedName × List Package.Function)) := do
  let placed ← functions.mapM fun f => do return (← className m f.token, f)
  let grouped := placed.foldl (fun (d : Dictionary QualifiedName (List Package.Function)) entry =>
    d.insert entry.1 ((d.get? entry.1).getD [] ++ [entry.2])) .empty
  return grouped.entries

end FunctionsClass

end SchemaToJava.Java
