import SchemaToJava.Proofs.Emissions
import SchemaToJava.Proofs.FilePaths
import SchemaToJava.Proofs.NameCharacters

/-!
The names of emitted classes. Each of them is made in the package of a module, or of a part of it,
which always has a segment that is not empty. So the only way in which two of them can share a file
is that a package given in the options has a slash in it.
-/
namespace SchemaToJava.Java

open Package Outcome Text

namespace QualifiedName

def IsVisible (name : QualifiedName) : Prop := ∃ part ∈ name.parts, part ≠ ""

variable {name : QualifiedName}

theorem isVisible_of_base (h : name.base.isEmpty = false) : name.IsVisible :=
  ⟨name.base, by simp [parts], String.isEmpty_eq_false_iff.1 h⟩

/-- What is made in a visible package has it in its segments. -/
theorem IsVisible.exists_segment (h : name.IsVisible) (base : String) :
    ∃ s ∈ (name.append base).segments, s ≠ "" := by
  obtain ⟨part, hpart, hne⟩ := h
  refine ⟨part, ?_, hne⟩
  unfold QualifiedName.append
  dsimp only
  split
  · next hempty =>
    rcases List.mem_append.1 hpart with hpart | hpart
    · exact hpart
    · rw [List.mem_singleton.1 hpart, String.isEmpty_iff.1 hempty] at hne
      exact absurd rfl hne
  · exact hpart

theorem IsVisible.append (h : name.IsVisible) (base : String) : (name.append base).IsVisible := by
  obtain ⟨s, hs, hne⟩ := h.exists_segment base
  exact ⟨s, List.mem_append_left _ hs, hne⟩

theorem IsVisible.foldl (h : name.IsVisible) (segment : String → String) (segments : List String) :
    (segments.foldl (fun name s => name.append (segment s)) name).IsVisible := by
  induction segments generalizing name with
  | nil => exact h
  | cons s rest ih => exact ih (h.append (segment s))

end QualifiedName

theorem PackageOptions.isVisible_root (o : PackageOptions) (packageName : String) :
    (o.root packageName).IsVisible :=
  QualifiedName.isVisible_of_base (Identifier.isEmpty_escape _)

theorem PackageOptions.isVisible_module (o : PackageOptions) (packageName : String)
    (name : Option String) : (o.module packageName name).IsVisible := by
  have hroot := o.isVisible_root packageName
  unfold module
  dsimp only
  split
  · exact hroot
  · split
    · exact hroot.foldl id _
    · exact hroot.foldl Identifier.packageSegment _

namespace TypeMapper

/-- The packages in which classes are made: those of modules and roots, and the parts of these. -/
inductive IsPlace (m : TypeMapper) : QualifiedName → Prop
  | module (t : Schema.Token) : IsPlace m (m.moduleOfToken t)
  | root (packageName : String) : IsPlace m ((m.optionsOf packageName).root packageName)
  | part {place : QualifiedName} {segment : String} : IsPlace m place →
      IsUnbroken segment.toList → IsPlace m (place.append segment)

def Places (m : TypeMapper) (name : QualifiedName) : Prop :=
  ∃ place base, m.IsPlace place ∧ IsUnbroken base.toList ∧ name = place.append base

variable {m : TypeMapper} {name place : QualifiedName}

theorem IsPlace.isVisible (h : m.IsPlace place) : place.IsVisible := by
  induction h with
  | module t => exact (m.optionsOf t.package).isVisible_module _ _
  | root packageName => exact (m.optionsOf packageName).isVisible_root packageName
  | part _ _ ih => exact ih.append _

theorem IsPlace.isUnbroken (h : m.IsPlace place) (hm : m.HasPlainNames) : place.IsUnbroken := by
  induction h with
  | module t => exact hm.isUnbroken_moduleOfToken t
  | root packageName => exact (hm.optionsOf packageName).isUnbroken_root packageName
  | part _ hsegment ih => exact ih.append hsegment

theorem isPlace_root (m : TypeMapper) : m.IsPlace m.root := by
  have hroot : m.IsPlace ((m.optionsOf m.package.name).root m.package.name) := .root m.package.name
  rwa [optionsOf, if_pos rfl] at hroot

theorem IsPlace.places (h : m.IsPlace place) {base : String} (hbase : IsUnbroken base.toList) :
    m.Places (place.append base) :=
  ⟨place, base, h, hbase, rfl⟩

theorem isUnbroken_with {base ending : String} (hbase : IsUnbroken base.toList)
    (hending : IsUnbroken ending.toList) : IsUnbroken (base ++ ending).toList := by
  rw [String.toList_append]
  exact hbase.append hending

/-- A class beside another one is made where this is. -/
theorem Places.sibling (h : m.Places name) {ending : String} (hending : IsUnbroken ending.toList) :
    m.Places (name.sibling (name.base ++ ending)) := by
  obtain ⟨place, base, hplace, hbase, rfl⟩ := h
  exact ⟨place, base ++ ending, hplace, isUnbroken_with hbase hending, rfl⟩

theorem places_resourceClass {token : String} (h : m.resourceClass token = .ok name) :
    m.Places name := by
  obtain ⟨t, -, h⟩ := bind_eq_ok.1 h
  split at h
  · obtain rfl := pure_eq_ok.1 h
    exact (IsPlace.root t.name).places (by decide)
  · obtain rfl := pure_eq_ok.1 h
    exact (IsPlace.module t).places (Identifier.isUnbroken_ofClass t.name)

theorem places_enumClass {token : String} (h : m.enumClass token = .ok name) : m.Places name := by
  obtain ⟨t, -, h⟩ := bind_eq_ok.1 h
  obtain rfl := pure_eq_ok.1 h
  exact ((IsPlace.module t).part (by decide)).places (Identifier.isUnbroken_ofClass t.name)

theorem places_objectClass {key : ObjectKey} {direction : Direction} {r : ClassRequest}
    (h : m.objectClass key direction = .ok r) : m.Places r.name := by
  obtain ⟨t, -, h⟩ := bind_eq_ok.1 h
  have hname := Identifier.isUnbroken_ofClass t.name
  cases direction with
  | output =>
    obtain rfl := pure_eq_ok.1 h
    exact ((IsPlace.module t).part (by decide)).places hname
  | input =>
    obtain rfl := pure_eq_ok.1 h
    refine ((IsPlace.module t).part (by decide)).places (isUnbroken_with hname ?_)
    split <;> decide

end TypeMapper

open TypeMapper

variable {m : TypeMapper}

/-- The classes of a resource lie where the mapper puts its package. -/
theorem ResourceClass.places_of_ofResource {r : Resource} {c : ResourceClass}
    (h : ofResource m r = .ok c) : ∀ name ∈ c.classNames, m.Places name := by
  obtain ⟨hname, harguments, hstate⟩ := names_of_ofResource h
  have hplaces := places_resourceClass hname
  intro name hmem
  rcases List.mem_cons.1 hmem with rfl | hmem
  · exact hplaces
  rcases List.mem_cons.1 hmem with rfl | hmem
  · rw [harguments]
    exact hplaces.sibling (by decide)
  · obtain ⟨module, hmodule, rfl⟩ := hstate name (Option.mem_toList.1 hmem)
    obtain ⟨t, -, hmodule⟩ := bind_eq_ok.1 hmodule
    obtain rfl := pure_eq_ok.1 hmodule
    obtain ⟨place, base, -, hbase, hclass⟩ := hplaces
    refine ((IsPlace.module t).part (by decide)).places (isUnbroken_with ?_ (by decide))
    rw [hclass]
    exact hbase

theorem FunctionsClass.places_of_className {token : String} {name : QualifiedName}
    (h : className m token = .ok name) : m.Places name := by
  obtain ⟨t, -, h⟩ := bind_eq_ok.1 h
  obtain rfl := pure_eq_ok.1 h
  exact (IsPlace.module t).places (isUnbroken_with (Identifier.isUnbroken_ofClass _) (by decide))

/-- The classes of a function lie where the mapper puts its module. -/
theorem FunctionsClass.places_of_signature {f : Package.Function} {s : FunctionSignature}
    (h : signature m f = .ok s) : ∀ name ∈ s.classNames, m.Places name := by
  obtain ⟨t, -, h⟩ := bind_eq_ok.1 h
  obtain rfl := pure_eq_ok.1 h
  have hname := Identifier.isUnbroken_ofClass t.name
  have hmodule : m.IsPlace (m.moduleOfToken t) := .module t
  intro name hmem
  rcases List.mem_append.1 hmem with hmem | hmem
  · obtain ⟨hinputs, hmem⟩ := List.mem_ite_nil_right.1 hmem
    dsimp only at hinputs hmem
    rw [if_pos hinputs, if_pos hinputs] at hmem
    rcases List.mem_cons.1 hmem with rfl | hmem
    · exact (hmodule.part (by decide)).places (isUnbroken_with hname (by decide))
    · obtain rfl := List.mem_singleton.1 hmem
      exact (hmodule.part (by decide)).places (isUnbroken_with hname (by decide))
  · obtain ⟨houtputs, hmem⟩ := List.mem_ite_nil_right.1 hmem
    dsimp only at houtputs hmem
    rw [if_pos houtputs] at hmem
    obtain rfl := List.mem_singleton.1 hmem
    exact (hmodule.part (by decide)).places (isUnbroken_with hname (by decide))

namespace Generation

/-- The classes of members are made in modules, roots and their parts. -/
theorem IsMemberClass.places {name : QualifiedName} (h : IsMemberClass m name) :
    m.Places name := by
  cases h with
  | resource _ hc hname => exact ResourceClass.places_of_ofResource hc name hname
  | functions _ hclass => exact FunctionsClass.places_of_className hclass
  | function _ hs hname => exact FunctionsClass.places_of_signature hs name hname
  | enum _ hname => exact places_enumClass hname
  | config => exact m.isPlace_root.places (by decide)
  | utilities => exact m.isPlace_root.places (by decide)

theorem IsEmission.places {c : Emission} (h : IsEmission m c) : m.Places c.1 := by
  cases h with
  | member hclass _ => exact hclass.places
  | object hserves _ => exact places_objectClass hserves.class_eq

end Generation

end SchemaToJava.Java
