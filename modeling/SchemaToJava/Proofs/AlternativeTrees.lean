import SchemaToJava.Java.ConfigClass
import SchemaToJava.Proofs.EnumDefaults
import SchemaToJava.Proofs.IntegerLiterals

/-!
Defaults of types with nested alternatives. A union in a union is mapped to two alternatives one of
which has two alternatives itself, and so on, so that the types that a value may have are the leaves
of a tree. A default is tried on the two branches of the root as if they were leaves, and a branch
that has alternatives takes none. So only the leaves at the root decide, and the default is written
for the leftmost leaf that takes it just if this is one of those, or if no leaf takes it.
-/
namespace SchemaToJava.Java

open Package Outcome DefaultExpression

inductive Side where
  | left
  | right
deriving DecidableEq, Repr

/-- The start of the call that makes a value of one of two alternatives. -/
def Side.opening : Side → String
  | .left => ".ofLeft("
  | .right => ".ofRight("

def wrapped (either : String) (path : List Side) (literal : String) : String :=
  path.foldr (fun side text => either ++ side.opening ++ text ++ ")") literal

/-- What a call starts with tells the side that it is for. -/
theorem side_eq_of_wrapped {either literal literal' : String} {side side' : Side}
    {path path' : List Side}
    (h : wrapped either (side :: path) literal = wrapped either (side' :: path') literal') :
    side = side' := by
  unfold wrapped at h
  simp only [List.foldr_cons, ← String.toList_inj, String.toList_append, List.append_assoc,
    List.append_cancel_left_eq] at h
  cases side with
  | left =>
    cases side' with
    | left => rfl
    | right => exact absurd (congrArg (·[3]?) h) (by simp [Side.opening])
  | right =>
    cases side' with
    | left => exact absurd (congrArg (·[3]?) h) (by simp [Side.opening])
    | right => rfl

namespace TypeShape

mutual

/-- The types that a type has for alternatives of alternatives, from left to right, with the paths
to them. -/
def leaves : TypeShape → List (List Side × TypeShape)
  | ⟨base, parameters, annotations⟩ =>
    let s : TypeShape := ⟨base, parameters, annotations⟩
    match s.either?, leavesOfEach parameters with
    | some _, [left, right] =>
      left.map (fun leaf => (.left :: leaf.1, leaf.2)) ++
        right.map fun leaf => (.right :: leaf.1, leaf.2)
    | _, _ => [([], s)]

def leavesOfEach : List TypeShape → List (List (List Side × TypeShape))
  | [] => []
  | s :: rest => s.leaves :: leavesOfEach rest

end

def branch (side : Side) (s : TypeShape) : List (List Side × TypeShape) :=
  s.leaves.map fun leaf => (side :: leaf.1, leaf.2)

def direct (s : TypeShape) : List (List Side × TypeShape) :=
  s.leaves.filter fun leaf => leaf.1.length == 1

variable {s left right : TypeShape}

theorem leaves_of_either (h : s.either? = some (left, right)) :
    s.leaves = branch .left left ++ branch .right right := by
  obtain ⟨-, hparameters⟩ := either?_eq_some.1 h
  cases s
  cases hparameters
  rw [leaves, h]
  rfl

theorem leaves_of_leaf (h : s.either? = none) : s.leaves = [([], s)] := by
  cases s
  rw [leaves, h]

theorem path_ne_nil (h : s.either? = some (left, right)) : ∀ leaf ∈ s.leaves, leaf.1 ≠ [] := by
  intro leaf hleaf
  rw [leaves_of_either h] at hleaf
  rcases List.mem_append.1 hleaf with hleaf | hleaf
  · obtain ⟨inner, -, rfl⟩ := List.mem_map.1 hleaf
    exact List.cons_ne_nil _ _
  · obtain ⟨inner, -, rfl⟩ := List.mem_map.1 hleaf
    exact List.cons_ne_nil _ _

/-- The branch that a path starts with. -/
def alternative (side : Side) (left right : TypeShape) : TypeShape :=
  match side with
  | .left => left
  | .right => right

theorem mem_leaves_cons_iff (h : s.either? = some (left, right)) {side : Side} {path : List Side}
    {leaf : TypeShape} :
    (side :: path, leaf) ∈ s.leaves ↔ (path, leaf) ∈ (alternative side left right).leaves := by
  rw [leaves_of_either h]
  cases side <;> simp [branch, alternative]

/-- A side of the root with a leaf there has no other leaves. -/
theorem path_eq_nil_of_mem (h : s.either? = some (left, right)) {side : Side} {path : List Side}
    {leaf other : TypeShape} (hroot : ([side], leaf) ∈ s.leaves)
    (hother : (side :: path, other) ∈ s.leaves) : path = [] := by
  rw [mem_leaves_cons_iff h] at hroot hother
  cases hbranch : (alternative side left right).either? with
  | some branches => exact absurd rfl (path_ne_nil hbranch _ hroot)
  | none =>
    rw [leaves_of_leaf hbranch] at hother
    exact congrArg Prod.fst (List.mem_singleton.1 hother)

/-- What is written for a leaf at the root is written for no leaf below it. -/
theorem length_of_wrapped (h : s.either? = some (left, right)) {either text text' : String}
    {leaf root : List Side × TypeShape} (hleaf : leaf ∈ s.leaves) (hroot : root ∈ s.direct)
    (hwrapped : wrapped either leaf.1 text = wrapped either root.1 text') : leaf.1.length = 1 := by
  obtain ⟨path, type⟩ := leaf
  obtain ⟨path', type'⟩ := root
  obtain ⟨hroot, hlength⟩ := List.mem_filter.1 hroot
  obtain ⟨side', rfl⟩ := List.length_eq_one_iff.1 (eq_of_beq hlength)
  obtain ⟨side, inner, rfl⟩ := List.exists_cons_of_ne_nil (path_ne_nil h _ hleaf)
  obtain rfl := side_eq_of_wrapped hwrapped
  rw [path_eq_nil_of_mem h hroot hleaf]
  rfl

def rootLeaf (side : Side) (s : TypeShape) : List (List Side × TypeShape) :=
  if s.either?.isNone then [([side], s)] else []

theorem filter_branch (side : Side) (s : TypeShape) :
    (branch side s).filter (fun leaf => leaf.1.length == 1) = rootLeaf side s := by
  cases h : s.either? with
  | none =>
    rw [branch, leaves_of_leaf h, rootLeaf, h]
    rfl
  | some branches =>
    rw [rootLeaf, h]
    refine List.filter_eq_nil_iff.2 fun leaf hleaf => ?_
    obtain ⟨inner, hinner, rfl⟩ := List.mem_map.1 hleaf
    have hpath := path_ne_nil h inner hinner
    simp [hpath]

theorem direct_of_either (h : s.either? = some (left, right)) :
    s.direct = rootLeaf .left left ++ rootLeaf .right right := by
  rw [direct, leaves_of_either h, List.filter_append, filter_branch, filter_branch]

end TypeShape

section Leaves

variable {m : TypeMapper} {property : String} {value : Json.Value} {s left right : TypeShape}

/-- The step ends alike in all files: it writes a text, or it fails and notes nothing. -/
inductive Settles (x : Drafting String) : Prop
  | writes (h : ∀ draft, ∃ text after, x.run.run draft = (.ok text, after))
  | refuses (e : GenerationError) (h : ∀ draft, x.run.run draft = (.error e, draft))

theorem settles_throw (e : GenerationError) : Settles (throw e) := .refuses e fun _ => rfl

theorem settles_ite {p : Prop} [Decidable p] {x y : Drafting String} (hx : Settles x)
    (hy : Settles y) : Settles (if p then x else y) := by
  split
  · exact hx
  · exact hy

theorem settles_literalOr (property expected : String) (found : Json.Value)
    (literal : Option String) : Settles (literalOr property expected found literal) := by
  cases literal with
  | none => exact settles_throw _
  | some literal => exact .writes fun draft => ⟨literal, draft, rfl⟩

/-- A step that cannot fail settles what is made of its text. -/
theorem settles_map {x : Drafting String}
    (hx : (requestFrame m).toFrame.Keeps (fun _ => False) x) (f : String → String) :
    Settles (do return f (← x)) := by
  refine .writes fun draft => ?_
  cases hrun : x.run.run draft with
  | mk outcome after =>
    cases outcome with
    | error e => exact ((hx draft).2 e (congrArg Prod.fst hrun)).elim
    | ok text => exact ⟨f text, after, by rw [run_bind_of_eq_ok hrun]; rfl⟩

theorem settles_enumLiteral (m : TypeMapper) (e : EnumType) (property : String)
    (value : Json.Value) (h : s.IsQualified) : Settles (enumLiteral e property s value) := by
  unfold enumLiteral
  dsimp only
  split
  · exact settles_map ((requestFrame m).keeps_code h) _
  · exact settles_throw _

/-- Whether a leaf takes a default does not depend on the file. -/
theorem settles_scalarLiteral (m : TypeMapper) (property : String) (value : Json.Value)
    (h : s.IsQualified) : Settles (scalarLiteral m property s value) := by
  have hparser : Library.jsonParser.isQualified = true := by decide
  unfold scalarLiteral
  apply settles_ite (settles_literalOr _ _ _ _)
  apply settles_ite (settles_literalOr _ _ _ _)
  apply settles_ite (settles_literalOr _ _ _ _)
  apply settles_ite (settles_literalOr _ _ _ _)
  apply settles_ite (settles_map ((requestFrame m).keeps_reference hparser) _)
  split
  · exact settles_enumLiteral m _ property value h
  · exact settles_throw _

/-- A branch that has alternatives is no type with literals of its own. -/
theorem scalarLiteral_of_either (h : s.either? = some (left, right)) :
    scalarLiteral m property s value = throw (.unsupportedDefault property s.simpleText) := by
  obtain ⟨hbase, -⟩ := TypeShape.either?_eq_some.1 h
  have hne : ∀ name, Library.either ≠ name → s.is name = false := by
    intro name hname
    rw [TypeShape.is, hbase]
    exact beq_eq_false_iff_ne.2 hname
  have henum : m.enumByClass? s.base = none := by
    refine Option.eq_none_iff_forall_ne_some.2 fun e he => ?_
    have hlast := getLast?_segments_enumClass (enumByClass?_eq_some he).2
    rw [hbase] at hlast
    exact absurd hlast (by decide)
  simp only [scalarLiteral, hne Library.boolean (by decide), hne Library.integer (by decide),
    hne Library.double (by decide), hne Library.string (by decide),
    hne Library.jsonElement (by decide), henum, Bool.false_eq_true, if_false]

theorem literal_of_leaf (h : s.either? = none) :
    literal m property s value = scalarLiteral m property s value := by
  simp only [literal, resolve, h, bind_assoc, pure_bind, bind_pure]

end Leaves

section Decisions

variable {m : TypeMapper} {property : String} {value : Json.Value} {draft after : Draft}
  {s type left right : TypeShape}

/-- Whether a literal of the type is written for a default. -/
def takes (m : TypeMapper) (property : String) (value : Json.Value) (draft : Draft)
    (s : TypeShape) : Bool :=
  ((literal m property s value).run.run draft).1.toOption.isSome

def firstTaking (m : TypeMapper) (property : String) (value : Json.Value) (draft : Draft)
    (leaves : List (List Side × TypeShape)) : Option (List Side × TypeShape) :=
  leaves.find? fun leaf => takes m property value draft leaf.2

/-- A default is written for the first of the leaves that takes it, in the calls along its path. It
fits neither alternative if none does. -/
structure DecidedBy (m : TypeMapper) (property : String) (type : TypeShape) (value : Json.Value)
    (draft : Draft) (leaves : List (List Side × TypeShape)) : Prop where
  succeeds_iff : takes m property value draft type = true ↔
    ∃ leaf ∈ leaves, takes m property value draft leaf.2 = true
  written : ∀ {path leaf}, firstTaking m property value draft leaves = some (path, leaf) →
    ∃ either after text, (Drafting.reference Library.either).run.run draft = (.ok either, after) ∧
      ((literal m property leaf value).run.run after).1 = .ok text ∧
      ((literal m property type value).run.run draft).1 = .ok (wrapped either path text)
  refused : firstTaking m property value draft leaves = none → ∃ first second,
    ((literal m property type value).run.run draft).1 = .error (.eitherDefault property first second)

theorem takes_iff :
    takes m property value draft s = true ↔
      ∃ text, ((literal m property s value).run.run draft).1 = .ok text := by
  unfold takes
  rw [Option.isSome_iff_exists]
  simp only [toOption_eq_some]

theorem firstTaking_isSome_iff {leaves : List (List Side × TypeShape)} :
    (∃ leaf ∈ leaves, takes m property value draft leaf.2 = true) ↔
      (firstTaking m property value draft leaves).isSome = true := by
  rw [firstTaking, List.find?_isSome]

/-- The first leaf that takes a default decides what is written. -/
theorem decidedBy_of_some {leaves : List (List Side × TypeShape)} {path : List Side}
    {leaf : TypeShape} {either text : String}
    (hfirst : firstTaking m property value draft leaves = some (path, leaf))
    (hreference : (Drafting.reference Library.either).run.run draft = (.ok either, after))
    (hleaf : ((literal m property leaf value).run.run after).1 = .ok text)
    (houtcome : ((literal m property type value).run.run draft).1 =
      .ok (wrapped either path text)) :
    DecidedBy m property type value draft leaves where
  succeeds_iff := by
    rw [firstTaking_isSome_iff, takes_iff, hfirst]
    simp [houtcome]
  written h := by
    rw [hfirst] at h
    cases h
    exact ⟨either, after, text, hreference, hleaf, houtcome⟩
  refused h := by
    rw [hfirst] at h
    cases h

theorem decidedBy_of_none {leaves : List (List Side × TypeShape)} {first second : GenerationError}
    (hfirst : firstTaking m property value draft leaves = none)
    (houtcome : ((literal m property type value).run.run draft).1 =
      .error (.eitherDefault property first second)) :
    DecidedBy m property type value draft leaves where
  succeeds_iff := by
    rw [firstTaking_isSome_iff, takes_iff, hfirst]
    simp [houtcome]
  written h := by
    rw [hfirst] at h
    cases h
  refused _ := ⟨first, second, houtcome⟩

theorem firstTaking_append {leaves leaves' : List (List Side × TypeShape)} :
    firstTaking m property value draft (leaves ++ leaves') =
      (firstTaking m property value draft leaves).or
        (firstTaking m property value draft leaves') :=
  List.find?_append

/-- A branch that is written in one file is a leaf that takes the default in every file. -/
theorem firstTaking_rootLeaf_of_ok (draft : Draft) (hs : s.IsQualified) {text : String}
    (side : Side)
    (h : ((scalarLiteral m property s value).run.run after).1 = .ok text) :
    firstTaking m property value draft (TypeShape.rootLeaf side s) = some ([side], s) ∧
      ((literal m property s value).run.run after).1 = .ok text := by
  cases heither : s.either? with
  | some branches =>
    rw [scalarLiteral_of_either heither] at h
    cases h
  | none =>
    have htakes : takes m property value draft s = true := by
      rw [takes_iff, literal_of_leaf heither]
      cases settles_scalarLiteral m property value hs with
      | writes hwrites =>
        obtain ⟨text, later, hrun⟩ := hwrites draft
        exact ⟨text, congrArg Prod.fst hrun⟩
      | refuses e hrefuses =>
        rw [hrefuses after] at h
        cases h
    refine ⟨?_, by rwa [literal_of_leaf heither]⟩
    simp [firstTaking, TypeShape.rootLeaf, heither, htakes]

/-- A branch that is refused in one file takes the default in none, and nothing is noted for it. -/
theorem firstTaking_rootLeaf_of_error (draft : Draft) (hs : s.IsQualified) {e : GenerationError}
    (side : Side)
    (h : ((scalarLiteral m property s value).run.run after).1 = .error e) :
    firstTaking m property value draft (TypeShape.rootLeaf side s) = none ∧
      ((scalarLiteral m property s value).run.run after).2 = after := by
  cases settles_scalarLiteral m property value hs with
  | writes hwrites =>
    obtain ⟨text, later, hrun⟩ := hwrites after
    rw [hrun] at h
    cases h
  | refuses e' hrefuses =>
    refine ⟨?_, congrArg Prod.snd (hrefuses after)⟩
    cases heither : s.either? with
    | some branches => simp [firstTaking, TypeShape.rootLeaf, heither]
    | none =>
      have hnot : takes m property value draft s = false := by
        rw [takes, literal_of_leaf heither, hrefuses draft]
        rfl
      simp [firstTaking, TypeShape.rootLeaf, heither, hnot]

/-- The leaves at the root decide. -/
theorem decidedBy_direct (h : type.IsQualified) (heither : type.either? = some (left, right))
    (property : String) (value : Json.Value) (draft : Draft) :
    DecidedBy m property type value draft type.direct := by
  obtain ⟨hleft, hright⟩ := h.alternatives heither
  obtain ⟨either, after, hreference, htries⟩ := triesBoth_resolve m property heither value draft
  have hrun : ((literal m property type value).run.run draft).1 =
      ((resolve m property type value).run.run draft).1.map Prod.snd := run_literal value draft
  generalize ((resolve m property type value).run.run draft).1 = outcome at htries hrun
  have happend : firstTaking m property value draft type.direct =
      (firstTaking m property value draft (TypeShape.rootLeaf .left left)).or
        (firstTaking m property value draft (TypeShape.rootLeaf .right right)) := by
    rw [TypeShape.direct_of_either heither, firstTaking_append]
  cases htries with
  | left hliteral =>
    obtain ⟨htaking, hwritten⟩ := firstTaking_rootLeaf_of_ok draft hleft .left hliteral
    rw [htaking, Option.some_or] at happend
    exact decidedBy_of_some happend hreference hwritten hrun
  | right hrefusal hliteral =>
    obtain ⟨hnone, hafter⟩ := firstTaking_rootLeaf_of_error draft hleft .left hrefusal
    rw [hafter] at hliteral
    obtain ⟨htaking, hwritten⟩ := firstTaking_rootLeaf_of_ok draft hright .right hliteral
    rw [hnone, htaking, Option.none_or] at happend
    exact decidedBy_of_some happend hreference hwritten hrun
  | neither hrefusal hrefusal' =>
    have hnone := (firstTaking_rootLeaf_of_error draft hleft .left hrefusal).1
    have hnone' := (firstTaking_rootLeaf_of_error draft hright .right hrefusal').1
    rw [hnone, hnone', Option.none_or] at happend
    exact decidedBy_of_none happend hrun

/-- A leaf at the root that is the first of all to take the default is the first of those there. -/
theorem firstTaking_direct {path : List Side} {leaf : TypeShape}
    (h : firstTaking m property value draft type.leaves = some (path, leaf))
    (hpath : path.length = 1) :
    firstTaking m property value draft type.direct = some (path, leaf) := by
  obtain ⟨htakes, before, behind, hsplit, hbefore⟩ := List.find?_eq_some_iff_append.1 h
  refine List.find?_eq_some_iff_append.2 ⟨htakes, ?_⟩
  rw [TypeShape.direct, hsplit, List.filter_append,
    List.filter_cons_of_pos (by simpa using hpath)]
  exact ⟨_, _, rfl, fun other hother => hbefore other (List.mem_of_mem_filter hother)⟩

theorem firstTaking_direct_of_none (h : firstTaking m property value draft type.leaves = none) :
    firstTaking m property value draft type.direct = none := by
  have hnone := List.find?_eq_none.1 h
  exact List.find?_eq_none.2 fun leaf hleaf => hnone leaf (List.mem_of_mem_filter hleaf)

/-- All leaves decide as they should just if the first that takes the default is at the root. -/
theorem decidedBy_leaves_iff (h : type.IsQualified) (heither : type.either? = some (left, right))
    (property : String) (value : Json.Value) (draft : Draft) :
    DecidedBy m property type value draft type.leaves ↔
      ∀ {path leaf}, firstTaking m property value draft type.leaves = some (path, leaf) →
        path.length = 1 := by
  have hdirect := decidedBy_direct (m := m) h heither property value draft
  constructor
  · intro hleaves path leaf hfirst
    obtain ⟨either, after, text, hreference, -, houtcome⟩ := hleaves.written hfirst
    have hmem := List.mem_of_find?_eq_some hfirst
    cases hroot : firstTaking m property value draft type.direct with
    | none =>
      obtain ⟨first, second, herror⟩ := hdirect.refused hroot
      rw [herror] at houtcome
      cases houtcome
    | some found =>
      obtain ⟨either', after', text', hreference', -, houtcome'⟩ := hdirect.written hroot
      rw [hreference] at hreference'
      cases hreference'
      have hwrapped := Except.ok.inj (houtcome.symm.trans houtcome')
      exact TypeShape.length_of_wrapped heither hmem (List.mem_of_find?_eq_some hroot) hwrapped
  · intro hlength
    cases hfirst : firstTaking m property value draft type.leaves with
    | none =>
      obtain ⟨first, second, herror⟩ := hdirect.refused (firstTaking_direct_of_none hfirst)
      exact decidedBy_of_none hfirst herror
    | some found =>
      obtain ⟨either, after, text, hreference, hleaf, houtcome⟩ :=
        hdirect.written (firstTaking_direct hfirst (hlength hfirst))
      exact decidedBy_of_some hfirst hreference hleaf houtcome

/-- How a default of a type with two alternatives is written. -/
structure Alternatives (m : TypeMapper) (property : String) (type : TypeShape) (value : Json.Value)
    (draft : Draft) : Prop where
  /-- The leaves at the root decide. -/
  direct : DecidedBy m property type value draft type.direct
  /-- All leaves do if the first of them that takes the default is at the root, and only then. -/
  leaves_iff : DecidedBy m property type value draft type.leaves ↔
    ∀ {path leaf}, firstTaking m property value draft type.leaves = some (path, leaf) →
      path.length = 1

/-- In every file, a default of a type that a union of any depth is mapped to is written for one of
the branches of the root, or refused. -/
theorem alternatives_of_typeShape {t : ResolvedType} {o : ShapeOptions} {mapped : Mapped}
    (h : m.typeShape t o = .ok mapped) (heither : mapped.shape.either?.isSome = true)
    (property : String) (value : Json.Value) (draft : Draft) :
    Alternatives m property mapped.shape value draft := by
  have hqualified := TypeMapper.isQualified_typeShape h
  obtain ⟨⟨left, right⟩, hbranches⟩ := Option.isSome_iff_exists.1 heither
  exact ⟨decidedBy_direct hqualified hbranches property value draft,
    decidedBy_leaves_iff hqualified hbranches property value draft⟩

end Decisions

section Nested

open Schema

/-- A variable that is a text, or else an integer or a truth value, and is three by default. -/
def nestedDocument : PackageDocument where
  name := "p"
  config := { properties := .ofList [("x", {
    type := { oneOf := some [{ typeName := some "string" },
      { oneOf := some [{ typeName := some "integer" }, { typeName := some "boolean" }] }] }
    default := some (.number (.int 3)) })] }

def nestedUnion : ResolvedType :=
  .union [.primitive .string, .union [.primitive .int, .primitive .bool]]

def nestedShape : TypeShape :=
  .either .string (.either (primitiveShape .int) (primitiveShape .bool))

def nestedDraft : Draft := .start {} ⟨["com", "pulumi", "p"], "Config"⟩

theorem typeShape_nestedUnion (m : TypeMapper) :
    m.typeShape nestedUnion {} = .ok ⟨nestedShape, []⟩ := rfl

/-- An alternative that has alternatives itself: a text is written for the first leaf. -/
theorem alternatives_of_typeShape_of_nestedUnion :
    let m : TypeMapper := ⟨{ name := "p" }, {}, {}⟩
    m.typeShape nestedUnion {} = .ok ⟨nestedShape, []⟩ ∧ nestedShape.either?.isSome = true ∧
      Alternatives m "x" nestedShape (.string "three") nestedDraft ∧
      firstTaking m "x" (.string "three") nestedDraft nestedShape.leaves =
        some ([.left], .string) := by
  intro m
  have hshape := typeShape_nestedUnion m
  exact ⟨hshape, rfl, alternatives_of_typeShape hshape rfl _ _ _, rfl⟩

/-- In a valid document, a default that is an integer fits none of the alternatives, though one of
them is an integer: this is not a branch of the root, but a leaf below. -/
theorem not_decidedBy_leaves_of_nestedUnion :
    nestedDocument.validate = .ok () ∧ ∃ package, nestedDocument.bind = .ok package ∧
      let m : TypeMapper := ⟨package, {}, {}⟩
      (ConfigClass.emit m).toOption.isNone = true ∧
      m.typeShape nestedUnion {} = .ok ⟨nestedShape, []⟩ ∧
      (firstTaking m "x" (.number (.int 3)) nestedDraft nestedShape.leaves).map Prod.fst =
        some [.right, .left] ∧
      ¬ DecidedBy m "x" nestedShape (.number (.int 3)) nestedDraft nestedShape.leaves := by
  have hvalid : nestedDocument.validate.toOption = some () := by decide +kernel
  have hbound : nestedDocument.bind.toOption.map (fun package =>
      ((ConfigClass.emit ⟨package, {}, {}⟩).toOption.isNone,
        takes ⟨package, {}, {}⟩ "x" (.number (.int 3)) nestedDraft nestedShape)) =
      some (true, false) := by
    decide +kernel
  obtain ⟨package, hpackage, hrefused⟩ := Option.map_eq_some_iff.1 hbound
  obtain ⟨hemit, htakes⟩ := Prod.mk.inj hrefused
  refine ⟨toOption_eq_some.1 hvalid, package, toOption_eq_some.1 hpackage, hemit,
    typeShape_nestedUnion _, rfl, fun hdecided => ?_⟩
  obtain ⟨either, after, text, -, -, houtcome⟩ := hdecided.written rfl
  rw [takes, houtcome] at htakes
  cases htakes

end Nested

end SchemaToJava.Java
