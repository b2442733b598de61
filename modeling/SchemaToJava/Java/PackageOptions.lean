import SchemaToJava.Java.Identifier
import SchemaToJava.Java.Imports
import SchemaToJava.Package.Basic
import SchemaToJava.Reading.OfValue

/-!
How the classes of a package are named. A package may carry options for Java: a base package, and
Java packages for its modules. The settings of a run may override them, and give the options of
other packages that the package refers to.
-/
namespace SchemaToJava.Java

open Reading

structure PackageOptions where
  /-- The Java packages of modules, below the root. -/
  packages : Dictionary String String := .empty
  basePackage : Option String := none
  buildFiles : Option String := none
  dependencies : Dictionary String String := .empty

structure Settings where
  /-- The tool that generated files name in their headers. -/
  toolName : String := "sdkgen"
  /-- The packages whose classes need no import. -/
  implicitPackages : List String := defaultImplicitPackages
  /-- The options of other packages. -/
  foreignPackages : Dictionary String PackageOptions := .empty
  /-- The options that count more than those of the package. -/
  overrides : Option PackageOptions := none

namespace PackageOptions

def fields (depth : Nat) : Fields PackageOptions where
  blank := {}
  readers := [
    ⟨"packages", dictionaryOf readText depth, fun x o => { o with packages := x }⟩,
    ⟨"basePackage", optional (readText depth), fun x o => { o with basePackage := x }⟩,
    ⟨"buildFiles", optional (readText depth), fun x o => { o with buildFiles := x }⟩,
    ⟨"dependencies", dictionaryOf readText depth, fun x o => { o with dependencies := x }⟩]

def ofPackage (p : Package) : Except GenerationError PackageOptions :=
  match p.language.get? "java" with
  | none => .ok {}
  | some block =>
    match recordOfValue fields block with
    | .ok options => .ok options
    | .error _ => .error .languageOptions

/-- The options where those of `other` count more. -/
def overlaid (o other : PackageOptions) : PackageOptions where
  packages := o.packages.overlaid other.packages
  basePackage := other.basePackage <|> o.basePackage
  buildFiles := other.buildFiles <|> o.buildFiles
  dependencies := o.dependencies.overlaid other.dependencies

def effective (settings : Settings) (p : Package) : Except GenerationError PackageOptions := do
  let options ← ofPackage p
  match settings.overrides with
  | some overrides => return options.overlaid overrides
  | none => return options

/-- The dotted package that holds the packages. -/
def base (o : PackageOptions) : String := o.basePackage.getD "com.pulumi"

def root (o : PackageOptions) (packageName : String) : QualifiedName :=
  (QualifiedName.ofDotted o.base).append (Identifier.packageSegment packageName)

def module (o : PackageOptions) (packageName : String) (module : Option String) : QualifiedName :=
  let root := o.root packageName
  match module with
  | none => root
  | some module =>
    match o.packages.get? module with
    | some given => (Text.piecesOf '.' given).foldl QualifiedName.append root
    | none =>
      (Text.piecesOf '/' module).foldl
        (fun name segment => name.append (Identifier.packageSegment segment)) root

end PackageOptions

end SchemaToJava.Java
