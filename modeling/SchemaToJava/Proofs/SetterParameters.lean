import SchemaToJava.Java.InputClass
import SchemaToJava.Proofs.ClosedShapes
import SchemaToJava.Proofs.Endings

/-!
The setters of a field. They are overloads of one method, and what tells overloads apart are the
classes of their parameters, without what stands in these. Beside the setter for the type of the
field there are setters for its value if that may come later, for the items of a list and for each
of two alternatives. The alternatives are only compared with each other; one that has two
alternatives again gets the same class as the value of the field.
-/
namespace SchemaToJava.Java

open Package Outcome TypeMapper

structure SetterParameter where
  type : TypeShape
  /-- Whether any number of values can be given, which arrive as an array. -/
  isVariadic : Bool := false

namespace SetterParameter

/-- What tells the parameters of overloads apart: the class, and whether it is that of the items of
an array. -/
def erased (p : SetterParameter) : QualifiedName × Bool := (p.type.base, p.isVariadic)

def code (p : SetterParameter) (type : String) : String :=
  if p.isVariadic then type ++ "..." else type

def Declares (f : Field) (p : SetterParameter) (text : String) : Prop :=
  ∃ type body, CanGive (Drafting.code p.type) type ∧
    text = Doc.text "        " none f.property.deprecation ++
      sourceLines (s!"        public Builder {f.ident}({p.code type} {f.ident}) \x7b" :: body)

end SetterParameter

namespace InputClass

def knownParameters (f : Field) : List SetterParameter :=
  match f.shape.withoutNullable.output? with
  | some value => [{ type := value }]
  | none => []

def itemsParameters (f : Field) : List SetterParameter :=
  match (knownShape f).list? with
  | some item => [{ type := item, isVariadic := true }]
  | none => []

def alternativeParameters (f : Field) : List SetterParameter :=
  match (knownShape f).either? with
  | some (left, right) =>
    if left.base = right.base then [] else [{ type := left }, { type := right }]
  | none => []

def setterParameters (f : Field) : List SetterParameter :=
  { type := f.shape } :: knownParameters f ++ itemsParameters f ++ alternativeParameters f

section Declares

variable {f : Field} {text : String}

theorem declares_forwardingSetter {p : SetterParameter} {type : String} (value : String)
    (h : CanGive (Drafting.code p.type) type) :
    p.Declares f (forwardingSetter f (p.code type) value) :=
  ⟨type, _, h, rfl⟩

theorem declares_of_directSetter (h : CanGive (directSetter f) text) :
    SetterParameter.Declares f { type := f.shape } text := by
  unfold directSetter at h
  obtain ⟨type, htype, h⟩ := canGive_bind h
  obtain rfl := canGive_pure h
  exact ⟨type, _, htype, rfl⟩

/-- The text declares one setter after another, each with one of the parameters. -/
def DeclareAll (f : Field) (parameters : List SetterParameter) (text : String) : Prop :=
  ∃ texts, List.Forall₂ (SetterParameter.Declares f) parameters texts ∧ text = String.join texts

theorem declareAll_nil : DeclareAll f [] "" := ⟨[], .nil, String.join_nil.symm⟩

theorem DeclareAll.cons {p : SetterParameter} {parameters : List SetterParameter}
    {others : String} (h : p.Declares f text) (hothers : DeclareAll f parameters others) :
    DeclareAll f (p :: parameters) (text ++ others) := by
  obtain ⟨texts, hall, rfl⟩ := hothers
  exact ⟨text :: texts, .cons h hall, String.join_cons.symm⟩

theorem declareAll_singleton {p : SetterParameter} (h : p.Declares f text) :
    DeclareAll f [p] text := by
  simpa using DeclareAll.cons h declareAll_nil

theorem DeclareAll.append {parameters others : List SetterParameter} {text' : String}
    (h : DeclareAll f parameters text) (h' : DeclareAll f others text') :
    DeclareAll f (parameters ++ others) (text ++ text') := by
  obtain ⟨texts, hall, rfl⟩ := h
  obtain ⟨texts', hall', rfl⟩ := h'
  exact ⟨texts ++ texts', List.rel_append hall hall', String.join_append.symm⟩

/-- The text of the setter for a known value declares just that setter. -/
theorem declareAll_of_knownSetter (h : CanGive (knownSetter f) text) :
    DeclareAll f (knownParameters f) text := by
  unfold knownSetter at h
  unfold knownParameters
  cases hvalue : f.shape.withoutNullable.output? with
  | none =>
    simp only [hvalue] at h ⊢
    obtain rfl := canGive_pure h
    exact declareAll_nil
  | some value =>
    simp only [hvalue] at h ⊢
    obtain ⟨output, -, h⟩ := canGive_bind h
    obtain ⟨type, htype, h⟩ := canGive_bind h
    obtain rfl := canGive_pure h
    exact declareAll_singleton (declares_forwardingSetter (p := { type := value }) _ htype)

/-- The text of the setter for items declares just that setter. -/
theorem declareAll_of_itemsSetter (h : CanGive (itemsSetter f) text) :
    DeclareAll f (itemsParameters f) text := by
  unfold itemsSetter at h
  unfold itemsParameters
  cases hitem : (knownShape f).list? with
  | none =>
    simp only [hitem] at h ⊢
    obtain rfl := canGive_pure h
    exact declareAll_nil
  | some item =>
    simp only [hitem] at h ⊢
    obtain ⟨list, -, h⟩ := canGive_bind h
    obtain ⟨type, htype, h⟩ := canGive_bind h
    obtain rfl := canGive_pure h
    exact declareAll_singleton
      (declares_forwardingSetter (p := { type := item, isVariadic := true }) _ htype)

/-- The setters of alternatives are declared, or left out together. -/
theorem declareAll_of_alternativeSetters (h : CanGive (alternativeSetters f) text) :
    DeclareAll f (alternativeParameters f) text := by
  unfold alternativeSetters at h
  unfold alternativeParameters
  cases halternatives : (knownShape f).either? with
  | none =>
    simp only [halternatives] at h ⊢
    obtain rfl := canGive_pure h
    exact declareAll_nil
  | some sides =>
    obtain ⟨left, right⟩ := sides
    simp only [halternatives] at h ⊢
    by_cases hsame : left.base = right.base
    · rw [if_pos hsame] at h ⊢
      obtain rfl := canGive_pure h
      exact declareAll_nil
    · rw [if_neg hsame] at h ⊢
      obtain ⟨either, -, h⟩ := canGive_bind h
      obtain ⟨first, hfirst, h⟩ := canGive_bind h
      obtain ⟨second, hsecond, h⟩ := canGive_bind h
      obtain rfl := canGive_pure h
      exact (declares_forwardingSetter (p := { type := left }) _ hfirst |> DeclareAll.cons)
        (declareAll_singleton (declares_forwardingSetter (p := { type := right }) _ hsecond))

/-- The setters of a field are declared one after another, each with its parameter. -/
theorem declareAll_of_setters (h : CanGive (setters f) text) :
    DeclareAll f (setterParameters f) text := by
  unfold setters at h
  obtain ⟨direct, hdirect, h⟩ := canGive_bind h
  obtain ⟨known, hknown, h⟩ := canGive_bind h
  obtain ⟨items, hitems, h⟩ := canGive_bind h
  obtain ⟨alternatives, halternatives, h⟩ := canGive_bind h
  obtain rfl := canGive_pure h
  have hvalues := DeclareAll.cons (declares_of_directSetter hdirect)
    (declareAll_of_knownSetter hknown)
  exact (hvalues.append (declareAll_of_itemsSetter hitems)).append
    (declareAll_of_alternativeSetters halternatives)

end Declares

end InputClass

/-- The field has a setter for each of its two alternatives, and one of these has the class that a
type with two alternatives has anyway, or that of the whole field. -/
def Field.HasTakenAlternative (f : Field) : Prop :=
  ∃ left right, (InputClass.knownShape f).either? = some (left, right) ∧ left.base ≠ right.base ∧
    ∃ side, (side = left ∨ side = right) ∧
      (side.base = Library.either ∨ side.base = f.shape.base)

/-- A value that comes later is no value that comes still later, also where the type is optional. -/
structure WaitsOnce (s : TypeShape) : Prop where
  output : ∀ value, s.output? = some value → value.base ≠ Library.output
  optional : ∀ inner, s.optional? = some inner → inner.base ≠ Library.optional ∧
    ∀ value, inner.output? = some value → value.base ≠ Library.output

section WaitsOnce

variable {s t : TypeShape}

theorem waitsOnce_of_ne (houtput : s.base ≠ Library.output)
    (hoptional : s.base ≠ Library.optional) : WaitsOnce s where
  output _ h := absurd (TypeShape.unwrap?_eq_some.1 h).1 houtput
  optional _ h := absurd (TypeShape.unwrap?_eq_some.1 h).1 hoptional

theorem waitsOnce_of_nil (h : s.parameters = []) : WaitsOnce s where
  output _ hvalue := by simpa [h] using (TypeShape.unwrap?_eq_some.1 hvalue).2
  optional _ hinner := by simpa [h] using (TypeShape.unwrap?_eq_some.1 hinner).2

/-- Annotations have no part in it. -/
theorem WaitsOnce.congr (h : WaitsOnce s) (hbase : t.base = s.base)
    (hparameters : t.parameters = s.parameters) : WaitsOnce t := by
  have hunwrap (wrapper : QualifiedName) : t.unwrap? wrapper = s.unwrap? wrapper := by
    unfold TypeShape.unwrap? TypeShape.is
    rw [hparameters, hbase]
  constructor
  · intro value hvalue
    exact h.output value ((hunwrap _).symm.trans hvalue)
  · intro inner hinner
    exact h.optional inner ((hunwrap _).symm.trans hinner)

theorem WaitsOnce.annotated (h : WaitsOnce s) (mark : String) : WaitsOnce (s.annotated mark) :=
  h.congr (TypeShape.base_annotated s mark) (TypeShape.parameters_annotated s mark)

theorem WaitsOnce.withoutNullable (h : WaitsOnce s) : WaitsOnce s.withoutNullable := by
  unfold TypeShape.withoutNullable TypeShape.nullable?
  split <;> exact h.congr rfl rfl

theorem WaitsOnce.annotatedAll (h : WaitsOnce s) (marks : List String) :
    WaitsOnce (marks.foldl TypeShape.annotated s) := by
  induction marks generalizing s with
  | nil => exact h
  | cons mark marks ih => exact ih (h.annotated mark)

/-- A value that waits once still does when it is optional. -/
theorem WaitsOnce.asOptional (h : WaitsOnce s) : WaitsOnce s.optional := by
  unfold TypeShape.optional
  split
  · exact h
  · next hother =>
    constructor
    · intro value hvalue
      exact absurd (TypeShape.unwrap?_eq_some.1 hvalue).1
        (by decide : Library.optional ≠ Library.output)
    · intro inner hinner
      obtain rfl : s = inner := by simpa using (TypeShape.unwrap?_eq_some.1 hinner).2
      exact ⟨fun hbase => hother (TypeShape.is_eq_true_iff.2 hbase), h.output⟩

theorem WaitsOnce.asOutput (h : WaitsOnce s) : WaitsOnce s.output := by
  unfold TypeShape.output
  split
  · exact h
  · next hother =>
    constructor
    · intro value hvalue
      obtain rfl : s = value := by simpa using (TypeShape.unwrap?_eq_some.1 hvalue).2
      exact fun hbase => hother (TypeShape.is_eq_true_iff.2 hbase)
    · intro inner hinner
      exact absurd (TypeShape.unwrap?_eq_some.1 hinner).1
        (by decide : Library.output ≠ Library.optional)

theorem WaitsOnce.inner (h : WaitsOnce s) (ht : s.optional? = some t) : WaitsOnce t := by
  obtain ⟨hoptional, houtput⟩ := h.optional t ht
  exact ⟨houtput, fun inner hinner => absurd (TypeShape.unwrap?_eq_some.1 hinner).1 hoptional⟩

end WaitsOnce

theorem shapeClosed_waitsOnce (m : TypeMapper) : m.ShapeClosed WaitsOnce where
  ofClass _ := waitsOnce_of_nil rfl
  commented _ := waitsOnce_of_nil rfl
  nullable h := h.annotated _
  optional h := h.asOptional
  output h := h.asOutput
  list _ := waitsOnce_of_ne (by decide : Library.list ≠ Library.output)
    (by decide : Library.list ≠ Library.optional)
  map _ := waitsOnce_of_ne (by decide : Library.map ≠ Library.output)
    (by decide : Library.map ≠ Library.optional)
  either _ _ := waitsOnce_of_ne (by decide : Library.either ≠ Library.output)
    (by decide : Library.either ≠ Library.optional)
  unwrapped h hinner := (h.inner hinner).annotatedAll _

namespace InputClass

section Erased

variable {f : Field}

theorem base_withoutNullable (s : TypeShape) : s.withoutNullable.base = s.base := by
  unfold TypeShape.withoutNullable TypeShape.nullable?
  split <;> rfl

/-- Some setter takes the value of the field as it is known. -/
theorem known_mem_erased (f : Field) : ((knownShape f).base, false) ∈
    (SetterParameter.mk f.shape false :: knownParameters f).map SetterParameter.erased := by
  unfold knownShape knownParameters
  dsimp only
  cases f.shape.withoutNullable.output? with
  | none => simp [SetterParameter.erased, base_withoutNullable]
  | some value => simp [SetterParameter.erased]

/-- The setters that take neither of two alternatives differ from each other. None takes a single
value of another class than that of the field or of its known value. -/
theorem nodup_erased_values (h : WaitsOnce f.shape) :
    ((SetterParameter.mk f.shape false :: knownParameters f ++ itemsParameters f).map
      SetterParameter.erased).Nodup ∧
    ∀ base, (base, false) ∈ (SetterParameter.mk f.shape false :: knownParameters f ++
      itemsParameters f).map SetterParameter.erased →
        base = f.shape.base ∨ base = (knownShape f).base := by
  unfold itemsParameters knownShape knownParameters
  dsimp only
  cases hvalue : f.shape.withoutNullable.output? with
  | none =>
    rw [Option.getD_none]
    cases f.shape.withoutNullable.list? with
    | none => simp [SetterParameter.erased]
    | some item => simp [SetterParameter.erased]
  | some value =>
    -- the field and its value would only coincide if the value came later as well
    have hbase : f.shape.base = Library.output :=
      (base_withoutNullable f.shape).symm.trans (TypeShape.unwrap?_eq_some.1 hvalue).1
    have hne : f.shape.base ≠ value.base :=
      fun heq => h.withoutNullable.output value hvalue (heq.symm.trans hbase)
    rw [Option.getD_some]
    cases value.list? with
    | none => simp [SetterParameter.erased, hne]
    | some item => simp [SetterParameter.erased, hne]

/-- The erased parameters of the setters differ unless one of two alternatives has a class that is
taken by another setter. -/
theorem nodup_erased_iff (h : WaitsOnce f.shape) :
    ((setterParameters f).map SetterParameter.erased).Nodup ↔ ¬ f.HasTakenAlternative := by
  obtain ⟨hvalues, hsingle⟩ := nodup_erased_values h
  unfold setterParameters alternativeParameters Field.HasTakenAlternative
  cases halternatives : (knownShape f).either? with
  | none => simpa using hvalues
  | some sides =>
    obtain ⟨left, right⟩ := sides
    have heither : (knownShape f).base = Library.either :=
      (TypeShape.either?_eq_some.1 halternatives).1
    dsimp only
    split
    · next hsame => simpa [hsame] using hvalues
    · next hdiffer =>
      rw [List.map_append, List.nodup_append]
      constructor
      · rintro ⟨-, -, hapart⟩ ⟨_, _, ⟨⟩, -, side, hside, hbase⟩
        have hmem : (side.base, false) ∈ (SetterParameter.mk f.shape false :: knownParameters f ++
            itemsParameters f).map SetterParameter.erased := by
          rw [List.map_append]
          refine List.mem_append_left _ ?_
          rcases hbase with hbase | hbase
          · exact hbase.trans heither.symm ▸ known_mem_erased f
          · exact hbase ▸ List.mem_cons_self
        refine hapart _ hmem _ ?_ rfl
        rcases hside with rfl | rfl <;> simp [SetterParameter.erased]
      · intro hfree
        refine ⟨hvalues, by simp [SetterParameter.erased, hdiffer], ?_⟩
        rintro _ hmem _ hside rfl
        obtain ⟨p, hp, rfl⟩ := List.mem_map.1 hside
        have hside : p.type = left ∨ p.type = right := by
          rcases List.mem_pair.1 hp with rfl | rfl
          · exact .inl rfl
          · exact .inr rfl
        have hvariadic : p.isVariadic = false := by
          rcases List.mem_pair.1 hp with rfl | rfl <;> rfl
        unfold SetterParameter.erased at hmem
        rw [hvariadic] at hmem
        refine hfree ⟨left, right, rfl, hdiffer, p.type, hside, ?_⟩
        rcases hsingle p.type.base hmem with hbase | hbase
        · exact .inr hbase
        · exact .inl (hbase.trans heither)

end Erased

end InputClass

end SchemaToJava.Java
