import SchemaToJava.Text.Pieces

/-!
Qualified names of Java classes: the segments of a package followed by a simple name. A dotted
text is read by cutting it at every dot, and written by joining the parts again.
-/
namespace SchemaToJava.Java

open Std

/-- A class name together with the package it lives in. -/
structure QualifiedName where
  segments : List String
  base : String
deriving DecidableEq, Repr, Inhabited

namespace QualifiedName

/-- Names are ordered by package first, segment by segment. -/
instance : Ord QualifiedName :=
  ⟨compareLex (compareOn segments) (compareOn base)⟩

instance : TransOrd QualifiedName :=
  inferInstanceAs (TransCmp (compareLex (compareOn segments) (compareOn base)))

instance : LawfulEqOrd QualifiedName where
  eq_of_compare {a b} h := by
    obtain ⟨hs, hb⟩ := Ordering.then_eq_eq.1 h
    cases a; cases b
    cases (LawfulEqOrd.eq_of_compare hs : _ = _)
    cases (LawfulEqOrd.eq_of_compare hb : _ = _)
    rfl

/-- Reads a dotted name. The last part is the simple name. -/
def ofDotted (s : String) : QualifiedName :=
  let parts := Text.piecesOf '.' s
  ⟨parts.dropLast, parts.getLast (Text.piecesOf_ne_nil '.' s)⟩

def dotted (name : QualifiedName) : String :=
  String.join (name.segments.map (· ++ ".")) ++ name.base

/-- The name `base` inside this name. A name without a simple name adds no segment. -/
def append (name : QualifiedName) (base : String) : QualifiedName :=
  ⟨if name.base.isEmpty then name.segments else name.segments ++ [name.base], base⟩

def sibling (name : QualifiedName) (base : String) : QualifiedName :=
  ⟨name.segments, base⟩

def packageName (name : QualifiedName) : String :=
  ".".intercalate name.segments

def isQualified (name : QualifiedName) : Bool := !name.segments.isEmpty

def filePath (name : QualifiedName) : String :=
  let folder := "/".intercalate name.segments
  (if folder.isEmpty then "" else folder ++ "/") ++ name.base ++ ".java"

end QualifiedName

end SchemaToJava.Java
