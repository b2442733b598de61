import Mathlib.Data.List.Permutation
import SchemaToJava.Proofs.FirstOccurrences
import SchemaToJava.Proofs.LegibleTexts
import SchemaToJava.Proofs.Optionality

/-!
Unions whose alternatives are mapped to the same type. They are merged by their texts, but as these
can be read back, they are merged just if they are the same types, with all their annotations. What
a union is mapped to then depends on its different alternatives in the order of their first
occurrences; without this order the same type comes out, except that two alternatives may change
places, or the names in a comment.
-/
namespace SchemaToJava.Java

open Package Outcome

namespace TypeShape

mutual

def decEq : (s t : TypeShape) → Decidable (s = t)
  | ⟨base, ps, marks⟩, ⟨base', ps', marks'⟩ =>
    letI := decEqs ps ps'
    decidable_of_iff (base = base' ∧ ps = ps' ∧ marks = marks') (by simp)

def decEqs : (ss ts : List TypeShape) → Decidable (ss = ts)
  | [], [] => .isTrue rfl
  | [], _ :: _ => .isFalse nofun
  | _ :: _, [] => .isFalse nofun
  | s :: ss, t :: ts =>
    letI := decEq s t
    letI := decEqs ss ts
    decidable_of_iff (s = t ∧ ss = ts) (by simp)

end

instance : DecidableEq TypeShape := decEq

end TypeShape

namespace TypeMapper

/-- The type for alternatives that differ. A single one becomes what `sole` says. -/
def collapsed (sole : TypeShape → TypeShape) : List TypeShape → TypeShape
  | [] => .object
  | [s] => sole s
  | [left, right] => .either left right
  | shapes => commented shapes

/-- What a type becomes where it is mapped as a whole: an optional one is marked as nullable there,
unless it may stay optional. -/
def atRoot (o : ShapeOptions) (s : TypeShape) : TypeShape :=
  if o.outerOptional then s else nullableRoot s

/-- What is left of a type where nothing is an input. -/
def known (o : ShapeOptions) (t : ResolvedType) : ResolvedType :=
  if o.inputless then t.plainShape else t

/-- No enum among the alternatives stands for the type of its elements. -/
def KeepsEnums (o : ShapeOptions) (ts : List ResolvedType) : Prop :=
  o.input = true ∨ ∀ token p, ResolvedType.enum token p ∉ ts

/-- The types are the same but for the order of the alternatives that they name. -/
inductive DiffersInOrder : TypeShape → TypeShape → Prop
  | same (s : TypeShape) : DiffersInOrder s s
  | branches (left right : TypeShape) : DiffersInOrder (.either left right) (.either right left)
  | names {shapes shapes' : List TypeShape} (h : shapes.Perm shapes') :
      DiffersInOrder (commented shapes) (commented shapes')

section Shapes

variable {shapes shapes' : List TypeShape}

theorem collapsed_of_many (sole : TypeShape → TypeShape) (h : 3 ≤ shapes.length) :
    collapsed sole shapes = commented shapes := by
  match shapes with
  | _ :: _ :: _ :: _ => rfl

theorem distinctShapes_eq (shapes : List TypeShape) :
    distinctShapes shapes = firsts TypeShape.qualifiedText shapes := by
  induction shapes with
  | nil => rfl
  | cons s rest ih =>
    have hfilter := firsts_filter TypeShape.qualifiedText (· != s.qualifiedText) rest
    rw [distinctShapes, firsts_cons, ih, ← hfilter]
    congr 2
    simp [bne, beq_eq_decide]

/-- Types that can be read back are merged just if they are the same. -/
theorem unionShape_eq (h : ∀ s ∈ shapes, s.IsLegible) :
    unionShape shapes = collapsed id (firsts id shapes) := by
  have hfirsts : distinctShapes shapes = firsts id shapes := by
    rw [distinctShapes_eq]
    exact firsts_congr fun s hs t ht => ⟨(h s hs).qualifiedText_inj (h t ht), fun heq => by
      have heq : s = t := heq
      rw [heq]⟩
  unfold unionShape
  rw [hfirsts]
  generalize firsts id shapes = different
  match different with
  | [] => rfl
  | [s] => rfl
  | [left, right] => rfl
  | _ :: _ :: _ :: _ => rfl

theorem atRoot_collapsed (o : ShapeOptions) (shapes : List TypeShape) :
    atRoot o (collapsed id shapes) = collapsed (atRoot o) shapes := by
  have hkeeps {s : TypeShape} (hs : s.base ≠ Library.optional) : atRoot o s = s := by
    unfold atRoot
    rw [nullableRoot_eq_self hs, ite_self]
  match shapes with
  | [] => exact hkeeps (by decide)
  | [s] => rfl
  | [left, right] => exact hkeeps (by decide : Library.either ≠ Library.optional)
  | first :: second :: third :: rest =>
    refine hkeeps ?_
    rw [collapsed_of_many id (by simp)]
    exact (by decide : Library.object ≠ Library.optional)

/-- The order of the alternatives shows in the comment at most. -/
theorem differsInOrder_collapsed (sole : TypeShape → TypeShape) (h : shapes.Perm shapes') :
    DiffersInOrder (collapsed sole shapes) (collapsed sole shapes') := by
  match shapes with
  | [] =>
    obtain rfl := h.nil_eq
    exact .same _
  | [s] =>
    obtain rfl := List.singleton_perm.1 h
    exact .same _
  | [left, right] =>
    rcases List.perm_pair.1 h.symm with rfl | rfl
    · exact .same _
    · exact .branches left right
  | first :: second :: third :: rest =>
    have hmany : 3 ≤ (first :: second :: third :: rest).length := by simp
    rw [collapsed_of_many sole hmany, collapsed_of_many sole (h.length_eq ▸ hmany)]
    exact .names h

end Shapes

variable {m : TypeMapper} {o : ShapeOptions} {ts : List ResolvedType}

theorem KeepsEnums.widened (h : KeepsEnums o ts) :
    (if o.input then none else widened? ts) = none := by
  rcases h with hinput | hnone
  · rw [if_pos hinput]
  · split
    · rfl
    · refine List.findSome?_eq_none_iff.2 fun t ht => ?_
      cases t with
      | enum token p => exact (hnone token p ht).elim
      | _ => rfl

theorem KeepsEnums.mono (h : KeepsEnums o ts) {us : List ResolvedType} (hus : ∀ t ∈ us, t ∈ ts) :
    KeepsEnums o us :=
  h.imp_right fun hnone token p ht => hnone token p (hus _ ht)

/-- The outcome for a union whose alternatives have the outcomes that `f` gives. -/
def unionOf (f : ResolvedType → Except GenerationError Mapped) (sole : TypeShape → TypeShape)
    (ts : List ResolvedType) : Except GenerationError Mapped := do
  let alternatives ← ts.mapM f
  return ⟨collapsed sole (firsts id (alternatives.map Mapped.shape)),
    alternatives.flatMap Mapped.needed⟩

theorem isLegible_of_mapM (hm : m.HasPlainNames) {wrapped : Bool} {alternatives : List Mapped}
    (h : ts.mapM (m.shape o wrapped) = .ok alternatives) :
    ∀ s ∈ alternatives.map Mapped.shape, s.IsLegible := by
  intro s hs
  obtain ⟨alternative, hmem, rfl⟩ := List.mem_map.1 hs
  obtain ⟨t, -, ht⟩ := exists_of_mem_mapM h hmem
  exact hm.shapeClosed_isLegible.shape ht

/-- Below the root of a type, a union is mapped to a type by its different alternatives. -/
theorem shape_union (hm : m.HasPlainNames) (h : KeepsEnums o ts) (wrapped : Bool) :
    m.shape o wrapped (.union ts) =
      unionOf (m.shape { o with requireInitializers := false } wrapped) id ts := by
  rw [shape, h.widened]
  dsimp only
  rw [shapes_eq_mapM, unionOf]
  cases halternatives : ts.mapM (m.shape { o with requireInitializers := false } wrapped) with
  | error e => rfl
  | ok alternatives =>
    change Except.ok _ = Except.ok _
    rw [unionShape_eq (isLegible_of_mapM hm halternatives)]

theorem plainShapes_eq (ts : List ResolvedType) :
    ResolvedType.plainShapes ts = ts.map ResolvedType.plainShape := by
  induction ts with
  | nil => rfl
  | cons t ts ih => rw [ResolvedType.plainShapes, ih, List.map_cons]

theorem known_union (o : ShapeOptions) (ts : List ResolvedType) :
    known o (.union ts) = .union (ts.map (known o)) := by
  unfold known
  split
  · rw [ResolvedType.plainShape, plainShapes_eq]
  · rw [List.map_id']

/-- At the root it is mapped in the same way, where a single alternative becomes what it would be at
the root. -/
theorem typeShape_union (hm : m.HasPlainNames) (h : KeepsEnums o (ts.map (known o))) :
    m.typeShape (.union ts) o =
      unionOf (m.shape { o with requireInitializers := false } false ∘ known o) (atRoot o) ts := by
  have hmapped : m.typeShape (.union ts) o = (m.shape o false (known o (.union ts))).map
      fun mapped => { mapped with shape := atRoot o mapped.shape } := by
    unfold typeShape known atRoot
    generalize (if o.inputless then (ResolvedType.union ts).plainShape else .union ts) = whole
    cases m.shape o false whole with
    | error e => rfl
    | ok mapped =>
      change Except.ok _ = Except.ok _
      split <;> rfl
  rw [hmapped, known_union, shape_union hm h, unionOf, unionOf, List.mapM_map]
  cases ts.mapM (m.shape { o with requireInitializers := false } false ∘ known o) with
  | error e => rfl
  | ok alternatives =>
    change Except.ok _ = Except.ok _
    dsimp only
    rw [atRoot_collapsed]

/-- The outcomes for unions of some of the alternatives of one union. -/
structure CollapsesUnion (f : ResolvedType → Except GenerationError Mapped)
    (sole : TypeShape → TypeShape) (union : List ResolvedType → Except GenerationError Mapped)
    (ts : List ResolvedType) : Prop where
  /-- The types of two alternatives have the same text just if they are the same. -/
  merges_iff : ∀ t ∈ ts, ∀ u ∈ ts, ∀ x y, f t = .ok x → f u = .ok y →
    (x.shape.qualifiedText = y.shape.qualifiedText ↔ x.shape = y.shape)
  collapses : union ts = unionOf f sole ts
  /-- An alternative that is repeated makes no difference. -/
  repeated : ∀ before t after, t ∈ before → before ++ t :: after = ts →
    (union ts).map Mapped.shape = (union (before ++ after)).map Mapped.shape
  /-- The same alternatives in another order make a difference in the order of names only. -/
  rearranged : ∀ us, (∀ t, t ∈ us ↔ t ∈ ts) → ∀ mapped, union ts = .ok mapped →
    ∃ mapped', union us = .ok mapped' ∧ DiffersInOrder mapped.shape mapped'.shape ∧
      ∀ r, r ∈ mapped'.needed ↔ r ∈ mapped.needed

section Union

variable {f : ResolvedType → Except GenerationError Mapped}

/-- What is made of an alternative is among the results for the alternatives that have it. -/
theorem mem_results_iff {alternatives : List Mapped} (h : ts.mapM f = .ok alternatives)
    {x : Mapped} : x ∈ alternatives ↔ ∃ t ∈ ts, f t = .ok x := by
  constructor
  · exact exists_of_mem_mapM h
  · rintro ⟨t, ht, hx⟩
    obtain ⟨y, hy, hty⟩ := exists_of_mem_of_mapM h ht
    obtain rfl := Except.ok.inj (hx.symm.trans hty)
    exact hy

/-- An alternative that stands earlier already adds nothing to the type. -/
theorem unionOf_repeated (sole : TypeShape → TypeShape) {before : List ResolvedType}
    {t : ResolvedType} (ht : t ∈ before) (after : List ResolvedType) :
    (unionOf f sole (before ++ t :: after)).map Mapped.shape =
      (unionOf f sole (before ++ after)).map Mapped.shape := by
  unfold unionOf
  rw [List.mapM_append, List.mapM_append, List.mapM_cons]
  cases hbefore : before.mapM f with
  | error e => rfl
  | ok xs =>
    obtain ⟨x, hx, hfx⟩ := exists_of_mem_of_mapM hbefore ht
    rw [hfx]
    cases after.mapM f with
    | error e => rfl
    | ok ys =>
      have hmem : id x.shape ∈ (xs.map Mapped.shape).map id := by
        rw [List.map_id]
        exact List.mem_map_of_mem hx
      change Except.ok (collapsed sole _) = Except.ok (collapsed sole _)
      rw [List.map_append, List.map_cons, firsts_append_cons hmem, List.map_append]

/-- The type of a union depends on the set of its alternatives, up to the order in a comment. -/
theorem unionOf_rearranged (sole : TypeShape → TypeShape) {us : List ResolvedType}
    (hus : ∀ t, t ∈ us ↔ t ∈ ts) {mapped : Mapped} (h : unionOf f sole ts = .ok mapped) :
    ∃ mapped', unionOf f sole us = .ok mapped' ∧ DiffersInOrder mapped.shape mapped'.shape ∧
      ∀ r, r ∈ mapped'.needed ↔ r ∈ mapped.needed := by
  obtain ⟨alternatives, halternatives, h⟩ := bind_eq_ok.1 h
  obtain rfl := pure_eq_ok.1 h
  obtain ⟨others, hothers⟩ : ∃ others, us.mapM f = .ok others := by
    refine exists_mapM.2 fun t ht => ?_
    exact exists_mapM.1 ⟨alternatives, halternatives⟩ t ((hus t).1 ht)
  have hmem (x : Mapped) : x ∈ others ↔ x ∈ alternatives := by
    rw [mem_results_iff hothers, mem_results_iff halternatives]
    simp only [hus]
  refine ⟨_, bind_eq_ok.2 ⟨others, hothers, rfl⟩, ?_, fun r => ?_⟩
  · refine differsInOrder_collapsed sole (firsts_perm fun s => ?_)
    simp only [List.mem_map, hmem]
  · simp only [List.mem_flatMap, hmem]

/-- What is shown of one union holds of the unions of its alternatives, as these are read back. -/
theorem collapsesUnion_of {sole : TypeShape → TypeShape}
    {union : List ResolvedType → Except GenerationError Mapped}
    (hlegible : ∀ t x, f t = .ok x → x.shape.IsLegible)
    (hunion : ∀ us, (∀ t ∈ us, t ∈ ts) → union us = unionOf f sole us) :
    CollapsesUnion f sole union ts where
  merges_iff t _ u _ x y hx hy :=
    ⟨(hlegible t x hx).qualifiedText_inj (hlegible u y hy), congrArg TypeShape.qualifiedText⟩
  collapses := hunion ts fun _ ht => ht
  repeated before t after ht hts := by
    have hfewer : ∀ u ∈ before ++ after, u ∈ ts := fun u hu =>
      hts ▸ List.mem_append.2 ((List.mem_append.1 hu).imp_right (List.mem_cons_of_mem t))
    rw [hunion ts fun _ hu => hu, hunion (before ++ after) hfewer, ← hts, unionOf_repeated sole ht]
  rearranged us hus mapped h := by
    rw [hunion ts fun _ ht => ht] at h
    rw [hunion us fun t ht => (hus t).1 ht]
    exact unionOf_rearranged sole hus h

end Union

/-- Wherever a union of no widened enums is mapped, at the root of a type or below it, its different
alternatives decide what it is mapped to. -/
theorem collapsesUnions (hm : m.HasPlainNames) (o : ShapeOptions) (ts : List ResolvedType) :
    (KeepsEnums o ts → ∀ wrapped,
      CollapsesUnion (m.shape { o with requireInitializers := false } wrapped) id
        (fun us => m.shape o wrapped (.union us)) ts) ∧
    (KeepsEnums o (ts.map (known o)) →
      CollapsesUnion (m.shape { o with requireInitializers := false } false ∘ known o) (atRoot o)
        (fun us => m.typeShape (.union us) o) ts) := by
  constructor
  · intro hts wrapped
    refine collapsesUnion_of (fun t x hx => hm.shapeClosed_isLegible.shape hx) fun us hus => ?_
    exact shape_union hm (hts.mono hus) wrapped
  · intro hts
    refine collapsesUnion_of (fun t x hx => hm.shapeClosed_isLegible.shape hx) fun us hus => ?_
    refine typeShape_union hm (hts.mono fun t ht => ?_)
    obtain ⟨u, hu, rfl⟩ := List.mem_map.1 ht
    exact List.mem_map_of_mem (hus u hu)

def placedMapper : TypeMapper where
  package := { name := "p" }
  options := { basePackage := some "org.p_1", packages := .ofList [("m", "a.b")] }
  settings := {}

/-- Alternatives of which two are unions again, and the same, and one has the class that these are
mapped to. -/
def nestedAlternatives : List ResolvedType :=
  let several : ResolvedType := .union [.primitive .string, .primitive .bool, .primitive .int]
  [several, .array (.primitive .string), .primitive .any, several, .resource "p:m:R"]

/-- Alternatives that are unions again, mapped inside of a type and as a whole. -/
theorem collapsesUnions_of_nested :
    placedMapper.HasPlainNames ∧ KeepsEnums {} nestedAlternatives ∧
      CollapsesUnion (placedMapper.shape {} true) id
        (fun us => placedMapper.shape {} true (.union us)) nestedAlternatives ∧
      KeepsEnums {} (nestedAlternatives.map (known {})) ∧
      CollapsesUnion (placedMapper.shape {} false ∘ known {}) (atRoot {})
        (fun us => placedMapper.typeShape (.union us) {}) nestedAlternatives ∧
      ∃ mapped, placedMapper.typeShape (.union nestedAlternatives) {} = .ok mapped ∧
        mapped.shape.qualifiedText =
          "/* Object | List<String> | Object | R */ java.lang.Object" := by
  have hplain : placedMapper.HasPlainNames := by
    refine ⟨⟨by decide, fun {module text} h => ?_⟩, fun h => by cases h⟩
    have hall : ∀ entry ∈ placedMapper.options.packages.entries, Text.IsPackageText entry.2 := by
      decide +kernel
    exact hall _ (Dictionary.get?_eq_some_iff.1 h)
  have hkeeps : KeepsEnums {} nestedAlternatives := by
    refine .inr fun token p h => ?_
    simp [nestedAlternatives] at h
  have hknown : KeepsEnums {} (nestedAlternatives.map (known {})) := hkeeps
  have htext :
      (placedMapper.typeShape (.union nestedAlternatives) {}).toOption.map (·.shape.qualifiedText) =
        some "/* Object | List<String> | Object | R */ java.lang.Object" := by
    decide +kernel
  obtain ⟨mapped, hmapped, htext⟩ := Option.map_eq_some_iff.1 htext
  obtain ⟨hbelow, hroot⟩ := collapsesUnions hplain {} nestedAlternatives
  exact ⟨hplain, hkeeps, hbelow hkeeps true, hknown, hroot hknown, mapped,
    toOption_eq_some.1 hmapped, htext⟩

end TypeMapper

end SchemaToJava.Java
