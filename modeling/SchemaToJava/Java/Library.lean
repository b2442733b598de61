import SchemaToJava.Java.Name

/-!
The classes that generated sources refer to: those of the Java library and those of the runtime
that comes with every generated package.
-/
namespace SchemaToJava.Java.Library

def object : QualifiedName := ⟨["java", "lang"], "Object"⟩
def string : QualifiedName := ⟨["java", "lang"], "String"⟩
def boolean : QualifiedName := ⟨["java", "lang"], "Boolean"⟩
def integer : QualifiedName := ⟨["java", "lang"], "Integer"⟩
def double : QualifiedName := ⟨["java", "lang"], "Double"⟩
def void : QualifiedName := ⟨["java", "lang"], "Void"⟩
def list : QualifiedName := ⟨["java", "util"], "List"⟩
def map : QualifiedName := ⟨["java", "util"], "Map"⟩
def optional : QualifiedName := ⟨["java", "util"], "Optional"⟩
def objects : QualifiedName := ⟨["java", "util"], "Objects"⟩
def stringJoiner : QualifiedName := ⟨["java", "util"], "StringJoiner"⟩
def completableFuture : QualifiedName := ⟨["java", "util", "concurrent"], "CompletableFuture"⟩
def collectors : QualifiedName := ⟨["java", "util", "stream"], "Collectors"⟩
def bufferedReader : QualifiedName := ⟨["java", "io"], "BufferedReader"⟩
def inputStreamReader : QualifiedName := ⟨["java", "io"], "InputStreamReader"⟩
def nullable : QualifiedName := ⟨["javax", "annotation"], "Nullable"⟩
def jsonElement : QualifiedName := ⟨["com", "google", "gson"], "JsonElement"⟩
def jsonParser : QualifiedName := ⟨["com", "google", "gson"], "JsonParser"⟩

def config : QualifiedName := ⟨["com", "pulumi"], "Config"⟩
def output : QualifiedName := ⟨["com", "pulumi", "core"], "Output"⟩
def either : QualifiedName := ⟨["com", "pulumi", "core"], "Either"⟩
def resourceAlias : QualifiedName := ⟨["com", "pulumi", "core"], "Alias"⟩
def typeShape : QualifiedName := ⟨["com", "pulumi", "core"], "TypeShape"⟩
def importMarker : QualifiedName := ⟨["com", "pulumi", "core", "annotations"], "Import"⟩
def exportMarker : QualifiedName := ⟨["com", "pulumi", "core", "annotations"], "Export"⟩
def customType : QualifiedName := ⟨["com", "pulumi", "core", "annotations"], "CustomType"⟩
def enumType : QualifiedName := ⟨["com", "pulumi", "core", "annotations"], "EnumType"⟩
def resourceType : QualifiedName := ⟨["com", "pulumi", "core", "annotations"], "ResourceType"⟩
def codegen : QualifiedName := ⟨["com", "pulumi", "core", "internal"], "Codegen"⟩
def deployment : QualifiedName := ⟨["com", "pulumi", "deployment"], "Deployment"⟩
def invokeOptions : QualifiedName := ⟨["com", "pulumi", "deployment"], "InvokeOptions"⟩
def resourceArgs : QualifiedName := ⟨["com", "pulumi", "resources"], "ResourceArgs"⟩
def invokeArgs : QualifiedName := ⟨["com", "pulumi", "resources"], "InvokeArgs"⟩
def customResource : QualifiedName := ⟨["com", "pulumi", "resources"], "CustomResource"⟩
def componentResource : QualifiedName := ⟨["com", "pulumi", "resources"], "ComponentResource"⟩
def providerResource : QualifiedName := ⟨["com", "pulumi", "resources"], "ProviderResource"⟩
def customResourceOptions : QualifiedName :=
  ⟨["com", "pulumi", "resources"], "CustomResourceOptions"⟩
def componentResourceOptions : QualifiedName :=
  ⟨["com", "pulumi", "resources"], "ComponentResourceOptions"⟩
def assetOrArchive : QualifiedName := ⟨["com", "pulumi", "asset"], "AssetOrArchive"⟩
def archive : QualifiedName := ⟨["com", "pulumi", "asset"], "Archive"⟩
def missingRequiredProperty : QualifiedName :=
  ⟨["com", "pulumi", "exceptions"], "MissingRequiredPropertyException"⟩

end SchemaToJava.Java.Library
