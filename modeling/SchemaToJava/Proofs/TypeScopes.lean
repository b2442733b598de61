import SchemaToJava.Proofs.ImportTable
import SchemaToJava.Proofs.Requests

/-!
What type names mean in a Java file. A simple name is looked up among the classes declared inside
the class of the file, then it may be that class or one that is imported, then a class of the same
package, and last one of `java.lang`. A name with dots starts with such a type, or else with a
package. The import table of a file knows of neither the first nor the third of these places, so a
class that it gives a text for is told by that text under some conditions only.
-/
namespace SchemaToJava.Java

inductive TypeMeaning
  /-- A class that is declared in no other. -/
  | topLevel (name : QualifiedName)
  /-- A class that is declared inside the one that the first part of the path means. -/
  | nested (path : List String)
deriving DecidableEq, Repr

/-- The types that a file can name without their packages. -/
structure TypeScope where
  /-- The classes declared inside the class of the file. -/
  members : List String
  /-- The class of the file. -/
  owner : QualifiedName
  /-- The classes that are imported one by one. -/
  imported : List QualifiedName
  /-- Whether there is a class of the same package. -/
  hasSibling : String → Bool
  /-- Whether there is a class of `java.lang`. -/
  isLanguageClass : String → Bool

namespace TypeScope

def languagePackage : List String := ["java", "lang"]

def meaningOfSimple (s : TypeScope) (short : String) : Option TypeMeaning :=
  if s.members.contains short then some (.nested [short])
  else if short = s.owner.base then some (.topLevel s.owner)
  else
    match s.imported.find? fun name => name.base == short with
    | some name => some (.topLevel name)
    | none =>
      if s.hasSibling short then some (.topLevel (s.owner.sibling short))
      else if s.isLanguageClass short then some (.topLevel ⟨languagePackage, short⟩)
      else none

def meaning (s : TypeScope) (text : String) : Option TypeMeaning :=
  match Text.piecesOf '.' text with
  | [] => none
  | [short] => s.meaningOfSimple short
  | first :: rest =>
    if (s.meaningOfSimple first).isSome then some (.nested (first :: rest))
    else some (.topLevel (.ofDotted text))

def Denotes (s : TypeScope) (text : String) (name : QualifiedName) : Prop :=
  s.meaning text = some (.topLevel name)

instance (s : TypeScope) (text : String) (name : QualifiedName) : Decidable (s.Denotes text name) :=
  inferInstanceAs (Decidable (_ = _))

/-- A class that needs no import is the one of its simple name among those of the same package and
of `java.lang`. -/
def Sees (s : TypeScope) (name : QualifiedName) : Prop :=
  if s.hasSibling name.base then name.segments = s.owner.segments
  else s.isLanguageClass name.base = true ∧ name.segments = languagePackage

end TypeScope

structure QualifiedName.IsDotFree (name : QualifiedName) : Prop where
  base : '.' ∉ name.base.toList
  segments : ∀ s ∈ name.segments, '.' ∉ s.toList

theorem QualifiedName.isDotFree_ofDotted (text : String) : (ofDotted text).IsDotFree := by
  have hparts : ∀ part ∈ Text.piecesOf '.' text, '.' ∉ part.toList := fun part hpart =>
    Text.notMem_of_mem_piecesOf hpart
  constructor
  · exact hparts _ (List.getLast_mem _)
  · intro s hs
    exact hparts s (List.dropLast_subset _ hs)

namespace TypeScope

variable {s : TypeScope} {text : String} {name : QualifiedName}

theorem meaning_of_notMem (h : '.' ∉ text.toList) : s.meaning text = s.meaningOfSimple text := by
  have hpieces : Text.piecesOf '.' text = [text] := by
    simp [Text.piecesOf, Text.pieces_of_notMem h]
  unfold meaning
  rw [hpieces]

/-- A text with a dot means the class that it spells, unless a type is called as it starts. -/
theorem denotes_iff_of_mem (h : '.' ∈ text.toList) :
    s.Denotes text name ↔ name = .ofDotted text ∧
      ∀ first ∈ (Text.piecesOf '.' text).head?, s.meaningOfSimple first = none := by
  obtain ⟨first, second, rest, hpieces⟩ := Text.exists_pieces_of_mem h
  unfold Denotes meaning
  rw [Text.piecesOf, hpieces]
  simp only [List.map_cons, List.head?_cons, Option.mem_some_iff, forall_eq']
  cases s.meaningOfSimple (.ofList first) with
  | none => simp [eq_comm]
  | some meaning => simp

end TypeScope

namespace Imports

/-- Each short name stands for a class that has it, that of the file among them. -/
structure IsKeyed (i : Imports) : Prop where
  base : ∀ {short name}, i.names.get? short = some name → name.base = short
  owner : i.names.get? i.owner.base = some i.owner

theorem forOwner_keyed (owner : QualifiedName) (implicit : List String) :
    (forOwner owner implicit).IsKeyed :=
  ⟨(forOwner_consistent owner implicit).base, Dictionary.get?_insert_self _ _ _⟩

/-- A reference binds a short name to a class that has it. -/
theorem IsKeyed.claim {i : Imports} (h : i.IsKeyed) (name : QualifiedName) :
    (i.claim name).IsKeyed := by
  have hextends := i.claim_extends name
  constructor
  · intro short bound hbound
    rw [get?_claim] at hbound
    split at hbound
    · next hfree =>
      cases hbound
      exact hfree.1.symm
    · exact h.base hbound
  · rw [hextends.owner]
    exact hextends.bound h.owner

theorem IsKeyed.note {i : Imports} (h : i.IsKeyed) (name : QualifiedName) :
    (i.note name).IsKeyed := ⟨h.base, h.owner⟩

def importedNames (i : Imports) : List QualifiedName :=
  i.names.values.filter fun name => name != i.owner && !i.isImplicit name

/-- The import declarations are those of the classes to import. -/
theorem mem_imported_iff_importedNames {i : Imports} {text : String} :
    text ∈ i.imported ↔ ∃ name ∈ i.importedNames, name.dotted = text := by
  simp only [imported, importedNames, Dictionary.mem_keys_ofList, List.map_map, List.mem_map,
    Function.comp_apply]

/-- The types that the file of a table sees, where its class declares others inside it. -/
def scope (i : Imports) (members : List String) (files : FileSet)
    (isLanguageClass : String → Bool) : TypeScope where
  members
  owner := i.owner
  imported := i.importedNames
  hasSibling short := files.contains (classPath (i.owner.sibling short))
  isLanguageClass

/-- The text that a table gives for a class tells that class in the scope. -/
inductive Tells (i : Imports) (s : TypeScope) (name : QualifiedName) : Prop
  /-- The class is referred to by its short name, which no class declared in the file has. -/
  | short : i.names.get? name.base = some name → '.' ∉ name.base.toList → name.base ∉ s.members →
      name = i.owner ∨ i.isImplicit name = false ∨ s.Sees name → Tells i s name
  /-- The class is referred to with its package, and no type is called as this package starts. -/
  | qualified : i.names.get? name.base ≠ some name → name.IsDotFree →
      (∀ first ∈ name.segments.head?, s.meaningOfSimple first = none) → Tells i s name

section Scope

variable {i : Imports} {members : List String} {files : FileSet} {isLanguageClass : String → Bool}
  {name : QualifiedName}

/-- The import that a short name is found by is what the table binds it to. -/
theorem find?_importedNames (h : i.IsKeyed) (short : String) :
    (i.importedNames.find? fun name => name.base == short) =
      (i.names.get? short).filter fun name => name != i.owner && !i.isImplicit name := by
  ext name
  rw [Option.filter_eq_some_iff]
  constructor
  · intro hfind
    have hbase := List.find?_some hfind
    obtain ⟨hmem, hkeep⟩ := List.mem_filter.1 (List.mem_of_find?_eq_some hfind)
    obtain ⟨key, hkey⟩ := Dictionary.mem_values_iff.1 hmem
    have hshort : key = short := (h.base hkey).symm.trans (beq_iff_eq.1 hbase)
    exact ⟨hshort ▸ hkey, hkeep⟩
  · rintro ⟨hget, hkeep⟩
    have hmem : name ∈ i.importedNames :=
      List.mem_filter.2 ⟨Dictionary.mem_values_iff.2 ⟨short, hget⟩, hkeep⟩
    cases hfind : i.importedNames.find? fun name => name.base == short with
    | none =>
      have hne := List.find?_eq_none.1 hfind name hmem
      simp [h.base hget] at hne
    | some other =>
      have hbase := List.find?_some hfind
      obtain ⟨hother, -⟩ := List.mem_filter.1 (List.mem_of_find?_eq_some hfind)
      obtain ⟨key, hkey⟩ := Dictionary.mem_values_iff.1 hother
      have hshort : key = short := (h.base hkey).symm.trans (beq_iff_eq.1 hbase)
      rw [hshort, hget] at hkey
      exact hkey.symm

/-- A short name is understood unless a class inside the file has it, or the class needs no import
and is not the one that the file sees. -/
theorem denotes_base_iff (h : i.IsKeyed) (hbound : i.names.get? name.base = some name) :
    (i.scope members files isLanguageClass).Denotes name.base name ↔
      '.' ∉ name.base.toList ∧ name.base ∉ members ∧
        (name = i.owner ∨ i.isImplicit name = false ∨
          (i.scope members files isLanguageClass).Sees name) := by
  by_cases hdot : '.' ∈ name.base.toList
  · refine iff_of_false (fun hdenotes => ?_) fun hfree => hfree.1 hdot
    have hspelled := ((TypeScope.denotes_iff_of_mem hdot).1 hdenotes).1
    have hfree := (QualifiedName.isDotFree_ofDotted name.base).base
    rw [← hspelled] at hfree
    exact hfree hdot
  unfold TypeScope.Denotes
  rw [TypeScope.meaning_of_notMem hdot, and_iff_right hdot]
  unfold TypeScope.meaningOfSimple
  by_cases hmember : name.base ∈ members
  · simp [scope, hmember]
  by_cases howner : name = i.owner
  · simp [scope, howner, howner ▸ hmember]
  have hne : name.base ≠ i.owner.base := by
    intro heq
    rw [heq, h.owner] at hbound
    exact howner (Option.some.inj hbound).symm
  by_cases himplicit : i.isImplicit name = true
  · have hfind : (i.importedNames.find? fun other => other.base == name.base) = none := by
      rw [find?_importedNames h, hbound]
      simp [himplicit]
    have hsame : ∀ segments : List String,
        (⟨segments, name.base⟩ : QualifiedName) = name ↔ name.segments = segments := by
      intro segments
      obtain ⟨own, base⟩ := name
      simp [eq_comm]
    by_cases hsibling : files.contains (classPath (i.owner.sibling name.base)) = true
    · have hown : i.owner.sibling name.base = name ↔ name.segments = i.owner.segments := hsame _
      simp [scope, hmember, hne, hfind, himplicit, howner, TypeScope.Sees, hsibling, hown]
    · by_cases hlanguage : isLanguageClass name.base = true
      · simp [scope, hmember, hne, hfind, himplicit, howner, TypeScope.Sees, hsibling, hlanguage,
          hsame]
      · simp [scope, hmember, hne, hfind, himplicit, howner, TypeScope.Sees, hsibling, hlanguage]
  · have hfind : (i.importedNames.find? fun other => other.base == name.base) = some name := by
      rw [find?_importedNames h, hbound]
      simp [himplicit, howner]
    simp [scope, hmember, hne, hfind, himplicit]

/-- A name with its package is understood unless a type is called as the package starts. -/
theorem denotes_dotted_iff (hqualified : name.isQualified = true) (s : TypeScope) :
    s.Denotes name.dotted name ↔ name.IsDotFree ∧
      ∀ first ∈ name.segments.head?, s.meaningOfSimple first = none := by
  have hcons : ∃ first rest, name.segments = first :: rest := by
    refine List.exists_cons_of_ne_nil fun hnil => ?_
    simp [QualifiedName.isQualified, hnil] at hqualified
  obtain ⟨first, rest, hsegments⟩ := hcons
  have hdot : '.' ∈ name.dotted.toList := by simp [QualifiedName.dotted, hsegments]
  have hhead (hfree : name.IsDotFree) :
      (Text.piecesOf '.' name.dotted).head? = name.segments.head? := by
    rw [QualifiedName.piecesOf_dotted hfree.base hfree.segments, hsegments]
    rfl
  rw [TypeScope.denotes_iff_of_mem hdot]
  constructor
  · rintro ⟨hspelled, hfirst⟩
    have hfree : name.IsDotFree := hspelled ▸ QualifiedName.isDotFree_ofDotted name.dotted
    exact ⟨hfree, hhead hfree ▸ hfirst⟩
  · rintro ⟨hfree, hfirst⟩
    have hspelled := QualifiedName.ofDotted_dotted hfree.base hfree.segments
    exact ⟨hspelled.symm, (hhead hfree).symm ▸ hfirst⟩

/-- What it takes for the text of a class to mean that class. -/
theorem denotes_textOf_iff (h : i.IsKeyed) (hqualified : name.isQualified = true) :
    (i.scope members files isLanguageClass).Denotes (i.textOf name) name ↔
      i.Tells (i.scope members files isLanguageClass) name := by
  unfold textOf
  split
  · next hbound =>
    rw [denotes_base_iff h hbound]
    constructor
    · rintro ⟨hfree, hmember, hsees⟩
      exact .short hbound hfree hmember hsees
    · rintro (⟨-, hfree, hmember, hsees⟩ | ⟨hunbound, -, -⟩)
      · exact ⟨hfree, hmember, hsees⟩
      · exact absurd hbound hunbound
  · next hunbound =>
    rw [denotes_dotted_iff hqualified]
    constructor
    · rintro ⟨hfree, hfirst⟩
      exact .qualified hunbound hfree hfirst
    · rintro (⟨hbound, -, -, -⟩ | ⟨-, hfree, hfirst⟩)
      · exact absurd hbound hunbound
      · exact ⟨hfree, hfirst⟩

end Scope

end Imports

end SchemaToJava.Java
