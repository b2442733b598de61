import Mathlib.Data.List.Nodup
import SchemaToJava.Proofs.PlaceTrees

/-!
The index tree of a type can be decoded. While the tree is built, the list of classes only grows at
its end, so a place that was given once keeps its class. The tree is read back from its text, and
with the class at each place put in it is the type again without its annotations.
-/
namespace SchemaToJava.Java

namespace PlaceTree

mutual

def places : PlaceTree → List Nat
  | .node place children => place :: placesAmong children

def placesAmong : List PlaceTree → List Nat
  | [] => []
  | t :: ts => t.places ++ placesAmong ts

end

mutual

/-- The type with the class at each place, if all places are in the list. -/
def typeOver? (refs : List QualifiedName) : PlaceTree → Option TypeShape
  | .node place children => do
    let base ← refs[place]?
    let parameters ← typesOver? refs children
    return { base, parameters }

def typesOver? (refs : List QualifiedName) : List PlaceTree → Option (List TypeShape)
  | [] => some []
  | t :: ts => do
    let s ← t.typeOver? refs
    return s :: (← typesOver? refs ts)

end

mutual

theorem lt_length_of_typeOver? {refs : List QualifiedName} : {t : PlaceTree} → {s : TypeShape} →
    t.typeOver? refs = some s → ∀ place ∈ t.places, place < refs.length
  | .node place children, s, h => by
    rw [typeOver?] at h
    obtain ⟨base, hbase, h⟩ := Option.bind_eq_some_iff.1 h
    obtain ⟨parameters, hparameters, -⟩ := Option.bind_eq_some_iff.1 h
    rw [places, List.forall_mem_cons]
    exact ⟨(List.getElem?_eq_some_iff.1 hbase).1, lt_length_of_typesOver? hparameters⟩

theorem lt_length_of_typesOver? {refs : List QualifiedName} : {ts : List PlaceTree} →
    {shapes : List TypeShape} → typesOver? refs ts = some shapes →
      ∀ place ∈ placesAmong ts, place < refs.length
  | [], shapes, h => by
    rw [placesAmong]
    exact fun place hplace => absurd hplace List.not_mem_nil
  | t :: ts, shapes, h => by
    rw [typesOver?] at h
    obtain ⟨s, hs, h⟩ := Option.bind_eq_some_iff.1 h
    obtain ⟨others, hothers, -⟩ := Option.bind_eq_some_iff.1 h
    rw [placesAmong, List.forall_mem_append]
    exact ⟨lt_length_of_typeOver? hs, lt_length_of_typesOver? hothers⟩

end

end PlaceTree

namespace TypeShape

mutual

def bare : TypeShape → TypeShape
  | ⟨base, parameters, _⟩ => { base, parameters := bares parameters }

def bares : List TypeShape → List TypeShape
  | [] => []
  | s :: rest => s.bare :: bares rest

end

theorem isEmpty_bares (shapes : List TypeShape) : (bares shapes).isEmpty = shapes.isEmpty := by
  cases shapes <;> rfl

mutual

/-- Annotations have no part in the index tree. -/
theorem indexTree_bare (refs : List QualifiedName) : (s : TypeShape) →
    s.bare.indexTree refs = s.indexTree refs
  | ⟨base, parameters, annotations⟩ => by
    simp only [bare, indexTree, indexTrees_bares, isEmpty_bares]

theorem indexTrees_bares (refs : List QualifiedName) : (shapes : List TypeShape) →
    indexTrees refs (bares shapes) = indexTrees refs shapes
  | [] => rfl
  | s :: rest => by
    simp only [bares, indexTrees, indexTree_bare, indexTrees_bares]

end

theorem reified_bare (s : TypeShape) : s.bare.reified = s.reified := by
  have hleaf : s.bare.parameters.isEmpty = s.parameters.isEmpty := by
    cases s
    exact isEmpty_bares _
  rw [reified, reified, indexTree_bare, hleaf]

/-- The list has grown at its end, and has no class twice if it had none before. -/
structure Grows (refs refs' : List QualifiedName) : Prop where
  isPrefix : refs <+: refs'
  nodup : refs.Nodup → refs'.Nodup

theorem Grows.refl (refs : List QualifiedName) : Grows refs refs := ⟨List.prefix_refl refs, id⟩

theorem Grows.trans {refs refs' refs'' : List QualifiedName} (h : Grows refs refs')
    (h' : Grows refs' refs'') : Grows refs refs'' :=
  ⟨h.isPrefix.trans h'.isPrefix, h'.nodup ∘ h.nodup⟩

/-- A class is found at the place it is given. -/
theorem placeIn_spec (refs : List QualifiedName) (name : QualifiedName) :
    Grows refs (placeIn refs name).2 ∧
      (placeIn refs name).2[(placeIn refs name).1]? = some name := by
  unfold placeIn
  split
  · next hmem =>
    have hlt : refs.idxOf name < refs.length := List.idxOf_lt_length_of_mem (by simpa using hmem)
    refine ⟨.refl refs, ?_⟩
    rw [List.getElem?_eq_getElem hlt, List.getElem_idxOf hlt]
  · next hnew =>
    refine ⟨⟨List.prefix_append _ _, fun hnodup => ?_⟩, by simp⟩
    refine List.nodup_append.2 ⟨hnodup, List.nodup_singleton _, ?_⟩
    rintro other hother _ hname rfl
    obtain rfl := List.mem_singleton.1 hname
    exact hnew (by simpa using hother)

/-- The text and the list that come of a type: a tree that stands for the type without annotations
over the list, and over all lists to which this one grows. -/
structure Reifies (refs : List QualifiedName) (s : TypeShape) (t : PlaceTree)
    (result : String × List QualifiedName) : Prop where
  text : result.1.toList = t.chars
  grows : Grows refs result.2
  typeOver : ∀ later, result.2 <+: later → t.typeOver? later = some s.bare

/-- The same for the parameters of a type. -/
structure ReifiesAll (refs : List QualifiedName) (shapes : List TypeShape) (ts : List PlaceTree)
    (result : List String × List QualifiedName) : Prop where
  texts : result.1.flatMap (fun part => ',' :: part.toList) = PlaceTree.charsAfter ts
  isEmpty : ts.isEmpty = shapes.isEmpty
  grows : Grows refs result.2
  typesOver : ∀ later, result.2 <+: later → PlaceTree.typesOver? later ts = some (bares shapes)

theorem toList_toString_nat (n : Nat) : (toString n).toList = Nat.toDigits 10 n := Nat.toList_repr

/-- The texts of a place and of subtrees between brackets. -/
theorem toList_brackets (place : Nat) {parts : List String} {ts : List PlaceTree}
    (h : parts.flatMap (fun part => ',' :: part.toList) = PlaceTree.charsAfter ts) :
    ("[" ++ ",".intercalate (toString place :: parts) ++ "]").toList =
      '[' :: (Nat.toDigits 10 place ++ (PlaceTree.charsAfter ts ++ [']'])) := by
  rw [String.toList_append, String.toList_append, Text.toList_intercalate_cons,
    toList_toString_nat, ← h, List.append_assoc, List.append_assoc]
  rfl

/-- A type with its class put in place and its parameters reified. -/
theorem ReifiesAll.typeOver {refs : List QualifiedName} {base : QualifiedName}
    {parameters : List TypeShape} {annotations : List String} {ts : List PlaceTree}
    {result : List String × List QualifiedName}
    (h : ReifiesAll (placeIn refs base).2 parameters ts result) {later : List QualifiedName}
    (hlater : result.2 <+: later) :
    (PlaceTree.node (placeIn refs base).1 ts).typeOver? later =
      some (bare ⟨base, parameters, annotations⟩) := by
  have hplace := (placeIn_spec refs base).2
  have hbase : later[(placeIn refs base).1]? = some base := by
    obtain ⟨added, hadded⟩ := h.grows.isPrefix.trans hlater
    rw [← hadded, List.getElem?_append_left (List.getElem?_eq_some_iff.1 hplace).1, hplace]
  rw [PlaceTree.typeOver?, hbase, h.typesOver later hlater, bare]
  rfl

mutual

/-- The index tree of a type stands for the type over the classes that it extends the list to. -/
theorem reifies_indexTree (refs : List QualifiedName) : (s : TypeShape) →
    ∃ t, Reifies refs s t (s.indexTree refs)
  | ⟨base, parameters, annotations⟩ => by
    have hplaced := (placeIn_spec refs base).1
    obtain ⟨ts, hparts⟩ := reifiesAll_indexTrees (placeIn refs base).2 parameters
    refine ⟨.node (placeIn refs base).1 ts, ?_⟩
    rw [indexTree]
    dsimp only
    cases ts with
    | nil =>
      rw [if_pos (hparts.isEmpty ▸ rfl)]
      exact ⟨toList_toString_nat _, hplaced.trans hparts.grows, fun _ => hparts.typeOver⟩
    | cons first others =>
      have hsome : ¬ parameters.isEmpty = true := by rw [← hparts.isEmpty]; exact Bool.false_ne_true
      rw [if_neg hsome]
      exact ⟨toList_brackets _ hparts.texts, hplaced.trans hparts.grows, fun _ => hparts.typeOver⟩

theorem reifiesAll_indexTrees (refs : List QualifiedName) : (shapes : List TypeShape) →
    ∃ ts, ReifiesAll refs shapes ts (indexTrees refs shapes)
  | [] => ⟨[], rfl, rfl, .refl refs, fun _ _ => rfl⟩
  | s :: rest => by
    obtain ⟨t, hfirst⟩ := reifies_indexTree refs s
    obtain ⟨ts, hothers⟩ := reifiesAll_indexTrees (s.indexTree refs).2 rest
    refine ⟨t :: ts, ?_, rfl, hfirst.grows.trans hothers.grows, fun later hlater => ?_⟩
    · rw [indexTrees, List.flatMap_cons, hothers.texts, hfirst.text]
      rfl
    · have hprefix := hothers.grows.isPrefix.trans hlater
      rw [PlaceTree.typesOver?, hfirst.typeOver later hprefix, hothers.typesOver later hlater]
      rfl

end

/-- The type that a list of classes and the text of a tree over it stand for. -/
def ofReified? (result : List QualifiedName × String) : Option TypeShape := do
  (← PlaceTree.ofText? result.2).typeOver? result.1

/-- The whole type is written in brackets whether it has parameters or not. -/
theorem reified_eq (base : QualifiedName) (parameters : List TypeShape)
    (annotations : List String) :
    reified ⟨base, parameters, annotations⟩ =
      ((indexTrees (placeIn [] base).2 parameters).2,
        "[" ++ ",".intercalate (toString (placeIn [] base).1 ::
          (indexTrees (placeIn [] base).2 parameters).1) ++ "]") := by
  cases parameters with
  | nil => rfl
  | cons s rest => rfl

theorem exists_tree_reified (s : TypeShape) : ∃ t, PlaceTree.ofText? s.reified.2 = some t ∧
    Grows [] s.reified.1 ∧ t.typeOver? s.reified.1 = some s.bare := by
  obtain ⟨base, parameters, annotations⟩ := s
  obtain ⟨ts, hparts⟩ := reifiesAll_indexTrees (placeIn [] base).2 parameters
  rw [reified_eq]
  exact ⟨_, PlaceTree.ofText?_brackets (toList_brackets (placeIn [] base).1 hparts.texts),
    (placeIn_spec [] base).1.trans hparts.grows, hparts.typeOver (List.prefix_refl _)⟩

theorem ofReified?_reified (s : TypeShape) : ofReified? s.reified = some s.bare := by
  obtain ⟨t, htext, -, htype⟩ := s.exists_tree_reified
  rw [ofReified?, htext]
  exact htype

/-- What the index tree of a type tells about it: all but its annotations. -/
structure IsDecodable (s : TypeShape) : Prop where
  nodup : s.reified.1.Nodup
  leaf : s.parameters = [] → s.reified = ([s.base], "[0]")
  tree : ∃ t, PlaceTree.ofText? s.reified.2 = some t ∧
    (∀ place ∈ t.places, place < s.reified.1.length) ∧ t.typeOver? s.reified.1 = some s.bare
  /-- Types are told apart by their index trees up to annotations. -/
  eq_iff : ∀ s' : TypeShape, s.reified = s'.reified ↔ s.bare = s'.bare

/-- The index tree of every type can be decoded. -/
theorem isDecodable (s : TypeShape) : s.IsDecodable := by
  obtain ⟨t, htext, hgrows, htype⟩ := s.exists_tree_reified
  refine ⟨hgrows.nodup List.nodup_nil, fun hleaf => ?_,
    ⟨t, htext, PlaceTree.lt_length_of_typeOver? htype, htype⟩,
    fun s' => ⟨fun h => ?_, fun h => ?_⟩⟩
  · obtain ⟨base, parameters, annotations⟩ := s
    obtain rfl : parameters = [] := hleaf
    rfl
  · have hdecoded := congrArg ofReified? h
    rw [ofReified?_reified, ofReified?_reified] at hdecoded
    exact Option.some.inj hdecoded
  · rw [← reified_bare, h, reified_bare]

example : (map (list (ofClass Library.integer))).reified =
    ([Library.map, Library.string, Library.list, Library.integer], "[0,1,[2,3]]") := by
  decide +kernel

end TypeShape

end SchemaToJava.Java
