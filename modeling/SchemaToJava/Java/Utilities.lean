import SchemaToJava.Java.ResourceClass

/-!
The class of a package's own helpers, which knows the version of the package, and the two files
that are bundled with the sources: the version, and the description of the plugin.
-/
namespace SchemaToJava.Java.Utilities

open Drafting (reference)

def version (m : TypeMapper) : String := m.package.version.getD "0.0.1"

def folder (m : TypeMapper) : String :=
  String.ofList (m.root.dotted.toList.map fun c => if c = '.' then '/' else c)

def text (m : TypeMapper) : Drafting String := do
  let optional ← reference Library.optional
  let nullable ← reference Library.nullable
  let invokeOptions ← reference Library.invokeOptions
  let reader ← reference Library.bufferedReader
  let streamReader ← reference Library.inputStreamReader
  let collectors ← reference Library.collectors
  let versionFile := StringLiteral.ofText (folder m ++ "/version.txt")
  let download := (m.package.pluginDownloadUrl.map StringLiteral.ofText).getD "null"
  return sourceLines
    ["public class Utilities \x7b",
      "",
      "    private static final String version;",
      "",
      "    public static String getVersion() \x7b",
      "        return version;",
      "    \x7d",
      "",
      s!"    private static final @{nullable} String pluginDownloadURL = {download};",
      "",
      s!"    public static {optional}<String> getPluginDownloadURL() \x7b",
      s!"        return {optional}.ofNullable(pluginDownloadURL);",
      "    \x7d",
      "",
      s!"    public static {invokeOptions} withVersion(@{nullable} {invokeOptions} options) \x7b",
      "        if (options != null && options.getVersion().isPresent()) \x7b",
      "            return options;",
      "        \x7d",
      s!"        return new {invokeOptions}(",
      "            options == null ? null : options.getParent().orElse(null),",
      "            options == null ? null : options.getProvider().orElse(null),",
      "            getVersion()",
      "        );",
      "    \x7d",
      "",
      "    static \x7b",
      s!"        var resourceName = {versionFile};",
      "        var versionFile = Utilities.class.getClassLoader().getResourceAsStream(resourceName);",
      "        if (versionFile == null) \x7b",
      "            throw new IllegalStateException(",
      "                String.format(\"expected resource '%s' on Classpath, not found\", resourceName)",
      "            );",
      "        \x7d",
      s!"        version = new {reader}(new {streamReader}(versionFile))",
      "            .lines()",
      s!"            .collect({collectors}.joining(\"\\n\"))",
      "            .trim();",
      "    \x7d",
      "\x7d"]

def emit (m : TypeMapper) : Except GenerationError Emitted :=
  draftClass m.settings (m.root.append utilitiesClass) (text m)

def pluginText (m : TypeMapper) : String :=
  let members :=
    [("resource", "true"), ("name", Json.quote m.package.name),
      ("version", Json.quote (version m))] ++
    (m.package.pluginDownloadUrl.map fun url => ("server", Json.quote url)).toList
  let lines := members.map fun member => "  " ++ Json.quote member.1 ++ ": " ++ member.2
  "\x7b\n" ++ ",\n".intercalate lines ++ "\n\x7d\n"

def bundled (m : TypeMapper) : List SourceFile :=
  let folder := resourceRoot ++ "/" ++ folder m
  [⟨folder ++ "/version.txt", version m ++ "\n"⟩, ⟨folder ++ "/plugin.json", pluginText m⟩]

end SchemaToJava.Java.Utilities
