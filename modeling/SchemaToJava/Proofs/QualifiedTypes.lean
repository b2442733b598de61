import SchemaToJava.Proofs.ShapeParts

/-!
Every class that sources refer to lives in a package. The root package of a package ends in a
segment that is never empty, whatever its base is, so that whatever is appended to it, or to a
package below it, is qualified. The classes in the Java types of all types are qualified as well,
and so are the annotations in front of them.
-/
namespace SchemaToJava.Java

open Package Outcome

namespace QualifiedName

/-- A name in which others can be made: it is in a package itself, or has a simple name that
becomes one. -/
def IsPackage (name : QualifiedName) : Prop :=
  name.isQualified = true ∨ name.base.isEmpty = false

theorem isQualified_append {name : QualifiedName} (h : name.IsPackage) (base : String) :
    (name.append base).isQualified = true := by
  unfold append isQualified
  split
  · next hempty =>
    rcases h with h | h
    · exact h
    · rw [hempty] at h
      cases h
  · simp

theorem isQualified_sibling {name : QualifiedName} (h : name.isQualified = true) (base : String) :
    (name.sibling base).isQualified = true := h

theorem IsPackage.append {name : QualifiedName} (h : name.IsPackage) (base : String) :
    (name.append base).IsPackage := .inl (isQualified_append h base)

theorem IsPackage.foldl {name : QualifiedName} (h : name.IsPackage) (segment : String → String)
    (parts : List String) :
    (parts.foldl (fun name part => name.append (segment part)) name).IsPackage := by
  induction parts generalizing name with
  | nil => exact h
  | cons part parts ih => exact ih (h.append (segment part))

end QualifiedName

theorem Identifier.isEmpty_escape (ident : String) : (Identifier.escape ident).isEmpty = false := by
  rw [String.isEmpty_eq_false_iff]
  intro hempty
  have hchars := congrArg String.toList hempty
  unfold Identifier.escape at hchars
  split at hchars
  · cases hchars
  · next first rest hident =>
    split_ifs at hchars
    · rw [String.toList_append] at hchars
      cases hchars
    · rw [String.toList_append, hident] at hchars
      cases hchars
    · rw [hident] at hchars
      cases hchars

theorem PackageOptions.isPackage_root (o : PackageOptions) (packageName : String) :
    (o.root packageName).IsPackage := .inr (Identifier.isEmpty_escape _)

theorem PackageOptions.isPackage_module (o : PackageOptions) (packageName : String)
    (name : Option String) : (o.module packageName name).IsPackage := by
  have hroot := o.isPackage_root packageName
  unfold module
  dsimp only
  split
  · exact hroot
  · split
    · exact hroot.foldl id _
    · exact hroot.foldl Identifier.packageSegment _

example :
    ({ basePackage := some "", packages := .ofList [("m", "..")] } : PackageOptions).module "p"
      (some "m") = ⟨["p"], ""⟩ := by
  decide +kernel

namespace TypeMapper

variable {m : TypeMapper}

theorem isPackage_root (m : TypeMapper) : m.root.IsPackage := m.options.isPackage_root _

theorem isPackage_moduleOfToken (m : TypeMapper) (t : Schema.Token) :
    (m.moduleOfToken t).IsPackage := (m.optionsOf t.package).isPackage_module _ _

theorem isPackage_modulePackage {token : String} {module : QualifiedName}
    (h : m.modulePackage token = .ok module) : module.IsPackage := by
  obtain ⟨t, -, h⟩ := bind_eq_ok.1 h
  obtain rfl := pure_eq_ok.1 h
  exact m.isPackage_moduleOfToken t

theorem isQualified_objectClass {key : ObjectKey} {direction : Direction} {r : ClassRequest}
    (h : m.objectClass key direction = .ok r) : r.name.isQualified = true := by
  obtain ⟨t, -, h⟩ := bind_eq_ok.1 h
  have hmodule := m.isPackage_moduleOfToken t
  cases direction with
  | output =>
    obtain rfl := pure_eq_ok.1 h
    exact QualifiedName.isQualified_append (hmodule.append _) _
  | input =>
    obtain rfl := pure_eq_ok.1 h
    exact QualifiedName.isQualified_append (hmodule.append _) _

theorem isQualified_enumClass {token : String} {name : QualifiedName}
    (h : m.enumClass token = .ok name) : name.isQualified = true := by
  obtain ⟨t, -, h⟩ := bind_eq_ok.1 h
  obtain rfl := pure_eq_ok.1 h
  exact QualifiedName.isQualified_append ((m.isPackage_moduleOfToken t).append _) _

theorem isQualified_resourceClass {token : String} {name : QualifiedName}
    (h : m.resourceClass token = .ok name) : name.isQualified = true := by
  obtain ⟨t, -, h⟩ := bind_eq_ok.1 h
  split at h
  · obtain rfl := pure_eq_ok.1 h
    exact QualifiedName.isQualified_append ((m.optionsOf t.name).isPackage_root t.name) _
  · obtain rfl := pure_eq_ok.1 h
    exact QualifiedName.isQualified_append (m.isPackage_moduleOfToken t) _

/-- The mapping starts from classes that live in packages. -/
theorem Assigns.isQualified {base : QualifiedName} (h : m.Assigns base) :
    base.isQualified = true := by
  cases h with
  | primitive p => cases p <;> rfl
  | object h => exact isQualified_objectClass h
  | enum h => exact isQualified_enumClass h
  | resource h => exact isQualified_resourceClass h

end TypeMapper

namespace TypeShape

/-- The text is a comment, or an annotation whose class lives in a package. -/
def IsQualifiedMark (mark : String) : Prop :=
  ∀ name, Text.afterLead "@" mark = some name → (QualifiedName.ofDotted name).isQualified = true

/-- All classes in the type and in its annotations live in packages. -/
def IsQualified (s : TypeShape) : Prop :=
  ∀ n : TypeShape, n.IsNode s →
    n.base.isQualified = true ∧ ∀ mark ∈ n.annotations, IsQualifiedMark mark

theorem isQualified_iff {s : TypeShape} :
    s.IsQualified ↔ (s.base.isQualified = true ∧ ∀ mark ∈ s.annotations, IsQualifiedMark mark) ∧
      ∀ p ∈ s.parameters, p.IsQualified :=
  forall_isNode_iff (P := fun n => n.base.isQualified = true ∧
    ∀ mark ∈ n.annotations, IsQualifiedMark mark)

theorem IsQualified.hasParts {s : TypeShape} (h : s.IsQualified) :
    s.HasParts (fun base => base.isQualified = true) IsQualifiedMark := h

theorem isQualifiedMark_nullable : IsQualifiedMark nullableMark := by
  intro name h
  have hname : Text.afterLead "@" nullableMark = some "javax.annotation.Nullable" := by
    decide +kernel
  obtain rfl := Option.some.inj (hname.symm.trans h)
  decide +kernel

theorem isQualifiedMark_comment (text : String) : IsQualifiedMark ("/* " ++ text) := by
  intro name h
  unfold Text.afterLead at h
  rw [String.toList_append] at h
  cases h

namespace IsQualified

variable {s t : TypeShape}

theorem base (h : s.IsQualified) : s.base.isQualified = true := (isQualified_iff.1 h).1.1

theorem marks (h : s.IsQualified) : ∀ mark ∈ s.annotations, IsQualifiedMark mark :=
  (isQualified_iff.1 h).1.2

theorem parameters (h : s.IsQualified) : ∀ p ∈ s.parameters, p.IsQualified :=
  (isQualified_iff.1 h).2

theorem ofClass {base : QualifiedName} (h : base.isQualified = true) :
    (TypeShape.ofClass base).IsQualified :=
  isQualified_iff.2 ⟨⟨h, by simp [TypeShape.ofClass]⟩, by simp [TypeShape.ofClass]⟩

/-- Other annotations may stand in front of a type. -/
theorem withAnnotations (h : s.IsQualified) {marks : List String}
    (hmarks : ∀ mark ∈ marks, IsQualifiedMark mark) :
    ({ s with annotations := marks } : TypeShape).IsQualified :=
  HasParts.withAnnotations h.hasParts hmarks

theorem annotated (h : s.IsQualified) {mark : String} (hmark : IsQualifiedMark mark) :
    (s.annotated mark).IsQualified := HasParts.annotated h.hasParts hmark

theorem optional (h : s.IsQualified) : s.optional.IsQualified :=
  HasParts.optional h.hasParts (by decide)

theorem output (h : s.IsQualified) : s.output.IsQualified := HasParts.output h.hasParts (by decide)

/-- What a type wraps is qualified with it. -/
theorem unwrap (h : s.IsQualified) {wrapper : QualifiedName}
    (hs : s.unwrap? wrapper = some t) : t.IsQualified := HasParts.unwrap h.hasParts hs

theorem unwrap_getD (h : s.IsQualified) (wrapper : QualifiedName) :
    ((s.unwrap? wrapper).getD s).IsQualified := by
  cases hs : s.unwrap? wrapper with
  | none => exact h
  | some inner => exact h.unwrap hs

theorem alternatives (h : s.IsQualified) {left right : TypeShape}
    (hs : s.either? = some (left, right)) : left.IsQualified ∧ right.IsQualified := by
  obtain ⟨-, hparameters⟩ := either?_eq_some.1 hs
  exact ⟨h.parameters left (by simp [hparameters]), h.parameters right (by simp [hparameters])⟩

theorem withoutAnnotations (h : s.IsQualified) : s.withoutAnnotations.IsQualified :=
  h.withAnnotations (by simp)

theorem unmarked (h : s.IsQualified) (hs : s.nullable? = some t) : t.IsQualified := by
  unfold nullable? at hs
  obtain ⟨-, rfl⟩ := Option.ite_some_none_eq_some.1 hs
  exact h.withAnnotations fun mark hmark => h.marks mark (List.mem_of_mem_filter hmark)

theorem withoutNullable (h : s.IsQualified) : s.withoutNullable.IsQualified := by
  unfold TypeShape.withoutNullable
  cases hs : s.nullable? with
  | none => exact h
  | some inner => exact h.unmarked hs

end IsQualified

section Reified

theorem mem_placeIn {refs : List QualifiedName} {name other : QualifiedName}
    (h : other ∈ (placeIn refs name).2) : other ∈ refs ∨ other = name := by
  unfold placeIn at h
  split at h
  · exact .inl h
  · simpa using h

mutual

/-- The classes that are placed are those of the nodes. -/
theorem isQualified_indexTree {refs : List QualifiedName}
    (hrefs : ∀ name ∈ refs, name.isQualified = true) : {s : TypeShape} → s.IsQualified →
      ∀ name ∈ (s.indexTree refs).2, name.isQualified = true
  | ⟨base, parameters, annotations⟩, hs => by
    have hplaced : ∀ name ∈ (placeIn refs base).2, name.isQualified = true := by
      intro name hname
      rcases mem_placeIn hname with hname | rfl
      · exact hrefs name hname
      · exact hs.base
    have hparts := isQualified_indexTrees hplaced hs.parameters
    unfold indexTree
    dsimp only
    split <;> exact hparts

theorem isQualified_indexTrees {refs : List QualifiedName}
    (hrefs : ∀ name ∈ refs, name.isQualified = true) : {shapes : List TypeShape} →
      (∀ s ∈ shapes, s.IsQualified) →
        ∀ name ∈ (indexTrees refs shapes).2, name.isQualified = true
  | [], _ => hrefs
  | s :: rest, h => by
    have hfirst := isQualified_indexTree hrefs (h s List.mem_cons_self)
    exact isQualified_indexTrees hfirst fun t ht => h t (List.mem_cons_of_mem s ht)

end

theorem IsQualified.reified {s : TypeShape} (h : s.IsQualified) :
    ∀ name ∈ s.reified.1, name.isQualified = true :=
  isQualified_indexTree (fun _ hname => absurd hname List.not_mem_nil) h

end Reified

end TypeShape

namespace TypeMapper

variable {m : TypeMapper}

theorem shapeClosed_isQualified (m : TypeMapper) : m.ShapeClosed TypeShape.IsQualified := by
  refine shapeClosed_hasParts (fun h => h.isQualified) (by decide)
    TypeShape.isQualifiedMark_nullable fun {shapes} _ => ?_
  rw [String.append_assoc]
  exact TypeShape.isQualifiedMark_comment _

/-- The Java type of every type is made of classes that live in packages. -/
theorem isQualified_typeShape {t : ResolvedType} {o : ShapeOptions} {mapped : Mapped}
    (h : m.typeShape t o = .ok mapped) : mapped.shape.IsQualified :=
  m.shapeClosed_isQualified.of_typeShape h

end TypeMapper

end SchemaToJava.Java
