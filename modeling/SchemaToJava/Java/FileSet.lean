import SchemaToJava.Java.SourceFile

/-!
The files of a generated package by their paths. No path is written twice.
-/
namespace SchemaToJava.Java

/-- Files in ascending order of their paths. -/
abbrev FileSet := Dictionary String String

namespace FileSet

/-- Adds a file to a set that has none of its path. -/
def add (files : FileSet) (file : SourceFile) : Except GenerationError FileSet :=
  if files.contains file.path then .error (.duplicateFile file.path)
  else .ok (Dictionary.insert files file.path file.text)

def addAll (files : FileSet) (added : List SourceFile) : Except GenerationError FileSet :=
  added.foldlM add files

end FileSet

end SchemaToJava.Java
