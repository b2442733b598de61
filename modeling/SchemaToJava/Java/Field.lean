import SchemaToJava.Java.SourceFile

/-!
The fields of generated classes: a property, its Java identifier and its Java type.
-/
namespace SchemaToJava.Java

open Package

structure Field where
  property : Property
  ident : String
  shape : TypeShape

namespace Field

/-- The identifier of a property. A name given for the language counts instead of its own. -/
def identOf (p : Property) : String := Identifier.ofProperty (p.languageName.getD p.name)

def ofProperty (m : TypeMapper) (o : ShapeOptions) (p : Property) : Drafting Field := do
  return ⟨p, identOf p, ← Drafting.shape m p.type o⟩

def doc (f : Field) (indent : String) : String :=
  Doc.text indent f.property.description f.property.deprecation

def nameLiteral (f : Field) : String := StringLiteral.ofText f.property.name

def parameter (f : Field) : Drafting String := do
  return (← Drafting.code f.shape) ++ " " ++ f.ident

end Field

end SchemaToJava.Java
