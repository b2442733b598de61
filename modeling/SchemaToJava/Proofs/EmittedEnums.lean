import SchemaToJava.Proofs.EnumIdentifiers
import SchemaToJava.Proofs.LoadedPackages

/-!
Which enums can be emitted. Validation, binding and emission each look at the declared type of an
enum and at the values of its elements. They agree on all of these but one: a whole number that is
too large for a signed word fits the declared type of whole numbers, but has no literal of it. So a
validated enum can be emitted exactly if it has no such value.
-/
namespace SchemaToJava

open Package Schema Outcome

/-- The values that an enum with elements of a primitive type may have. -/
inductive IsElementOf : Primitive → Json.Value → Prop
  | string (s : String) : IsElementOf .string (.string s)
  | bool (b : Bool) : IsElementOf .bool (.bool b)
  | int (i : Int) : IsElementOf .int (.number (.int i))
  | number (n : Json.Number) : IsElementOf .number (.number n)

namespace Schema

theorem elementType_eq_string {typeName : Option String} (hint : typeName ≠ some "integer")
    (hnumber : typeName ≠ some "number") (hbool : typeName ≠ some "boolean") :
    (typeName.bind Primitive.ofTypeName?).getD .string = .string := by
  cases typeName with
  | none => rfl
  | some name =>
    rw [Option.bind_some]
    unfold Primitive.ofTypeName?
    split
    · exact absurd rfl hbool
    · exact absurd rfl hint
    · exact absurd rfl hnumber
    · rfl
    · rfl

/-- Validation reads the declared type as binding does: one that is missing or unknown stands for
texts. -/
theorem fitsElementType_iff (entry : TypeEntry) (value : Json.Value) :
    fitsElementType entry.object.typeName value = true ↔
      IsElementOf (elementTypeOf entry) value := by
  unfold elementTypeOf
  generalize entry.object.typeName = typeName
  unfold fitsElementType
  split
  case h_1 i => exact iff_of_true rfl (.int i)
  case h_2 hne => exact iff_of_false (by simp) fun h => by cases h; exact hne _ rfl
  case h_3 n => exact iff_of_true rfl (.number n)
  case h_4 hne => exact iff_of_false (by simp) fun h => by cases h; exact hne _ rfl
  case h_5 b => exact iff_of_true rfl (.bool b)
  case h_6 hne => exact iff_of_false (by simp) fun h => by cases h; exact hne _ rfl
  case h_7 s hint hnumber hbool =>
    rw [elementType_eq_string hint hnumber hbool]
    exact iff_of_true rfl (.string s)
  case h_8 hint hnumber hbool hne _ _ _ =>
    rw [elementType_eq_string hint hnumber hbool]
    exact iff_of_false (by simp) fun h => by cases h; exact hne _ rfl

/-- Checking the elements of an enum, one after another, admits only values of its type. -/
theorem fits_of_checkElements {token : String} {typeName : Option String} {names : List String}
    {values : List (String × Nat)} {place : Nat} {entries : List EnumEntry}
    (h : checkElements token typeName names values place entries = .ok ()) :
    ∀ entry ∈ entries, fitsElementType typeName entry.value = true := by
  induction entries generalizing names values place with
  | nil => exact fun entry hentry => absurd hentry List.not_mem_nil
  | cons first rest ih =>
    rw [checkElements] at h
    split at h
    · cases h
    · cases h
    · split at h
      · next hfits =>
        intro entry hentry
        rcases List.mem_cons.1 hentry with rfl | hentry
        · exact hfits
        · exact ih h entry hentry
      · cases h

/-- A valid document has had the elements of each of its enums checked. -/
theorem checkElements_of_validate {d : PackageDocument} (h : d.validate = .ok ()) {token : String}
    {entry : TypeEntry} (hentry : (token, entry) ∈ d.types.entries) {elements : List EnumEntry}
    (helements : entry.elements = some elements) :
    checkElements token entry.object.typeName [] [] 0 elements = .ok () := by
  unfold PackageDocument.validate at h
  split at h
  · cases h
  obtain ⟨_, htypes, -⟩ := bind_eq_ok.1 h
  obtain ⟨_, -, hcheck⟩ := bind_eq_ok.1 (forM_eq_ok.1 htypes (token, entry) hentry)
  rw [helements] at hcheck
  change checkEnum token entry.object.typeName elements = .ok () at hcheck
  unfold checkEnum at hcheck
  split at hcheck
  · cases hcheck
  · exact hcheck

/-- The elements of an enum of a valid document fit its declared type. -/
theorem fits_of_validate {d : PackageDocument} (h : d.validate = .ok ()) {token : String}
    {entry : TypeEntry} (hentry : (token, entry) ∈ d.types.entries) {elements : List EnumEntry}
    (helements : entry.elements = some elements) :
    ∀ element ∈ elements, fitsElementType entry.object.typeName element.value = true :=
  fits_of_checkElements (checkElements_of_validate h hentry helements)

end Schema

namespace Java.EnumClass

/-- A whole number that is too large for a signed word. -/
def IsOversized (type : Primitive) (value : Json.Value) : Prop :=
  type = .int ∧ ∃ i, value = .number (.int i) ∧ Json.isWord i = false

theorem elementLiteral_cases (e : EnumType) (value : Json.Value) :
    (∃ literal, elementLiteral e value = .ok literal) ∨
      elementLiteral e value = .error (.mismatchedElement e.token value e.elementType) := by
  unfold elementLiteral
  dsimp only
  split
  · next literal _ => exact .inl ⟨literal, rfl⟩
  · exact .inr rfl

/-- The values of the declared type have literals, unless they are too large. -/
theorem exists_elementLiteral_iff (e : EnumType) (value : Json.Value) :
    (∃ literal, elementLiteral e value = .ok literal) ↔
      IsElementOf e.elementType value ∧ ¬ IsOversized e.elementType value := by
  unfold elementLiteral
  dsimp only
  generalize e.elementType = type
  constructor
  · rintro ⟨literal, h⟩
    split at h
    · next found hfound =>
      split at hfound
      · exact ⟨.string _, by rintro ⟨⟨⟩, -⟩⟩
      · exact ⟨.bool _, by rintro ⟨⟨⟩, -⟩⟩
      · next i =>
        refine ⟨.int i, ?_⟩
        rintro ⟨-, j, hj, hlarge⟩
        cases hj
        rw [hlarge] at hfound
        cases hfound
      · exact ⟨.number _, by rintro ⟨⟨⟩, -⟩⟩
      · cases hfound
    · cases h
  · rintro ⟨hvalue, hsmall⟩
    cases hvalue with
    | string s => exact ⟨_, rfl⟩
    | bool b => exact ⟨_, rfl⟩
    | int i =>
      have hword : Json.isWord i = true := by
        by_contra hlarge
        exact hsmall ⟨rfl, i, rfl, Bool.eq_false_iff.2 hlarge⟩
      exact ⟨toString i, by simp [hword]⟩
    | number n => exact ⟨_, rfl⟩

variable {e : EnumType}

theorem exists_elementsText_iff {elements : List (EnumElement × String)} :
    (∃ text, elementsText e elements = .ok text) ↔
      ∀ element ∈ elements, ∃ literal, elementLiteral e element.1.value = .ok literal := by
  induction elements with
  | nil => exact iff_of_true ⟨"", rfl⟩ fun element h => absurd h List.not_mem_nil
  | cons element rest ih =>
    obtain ⟨element, ident⟩ := element
    rw [List.forall_mem_cons, ← ih, elementsText]
    simp only [bind_eq_ok, pure_eq_ok]
    constructor
    · rintro ⟨_, literal, hliteral, later, hlater, -⟩
      exact ⟨⟨literal, hliteral⟩, later, hlater⟩
    · rintro ⟨⟨literal, hliteral⟩, later, hlater⟩
      exact ⟨_, literal, hliteral, later, hlater, rfl⟩

theorem error_of_elementsText {elements : List (EnumElement × String)} {failed : GenerationError}
    (h : elementsText e elements = .error failed) :
    ∃ element ∈ elements, elementLiteral e element.1.value = .error failed := by
  induction elements with
  | nil => cases h
  | cons element rest ih =>
    unfold elementsText at h
    rcases bind_eq_error.1 h with h | ⟨literal, -, h⟩
    · exact ⟨element, List.mem_cons_self, h⟩
    · obtain ⟨other, hother, hfailed⟩ := ih (bind_pure_eq_error.1 h)
      exact ⟨other, List.mem_cons_of_mem element hother, hfailed⟩

/-- Every element is declared. -/
theorem map_fst_declared (e : EnumType) : (declared e).map Prod.fst = e.elements :=
  List.map_fst_zip (Nat.le_of_eq (length_identifiers e).symm)

/-- The text of the class has the declarations of the elements. -/
theorem exists_elementsText {owner : QualifiedName} {body : String}
    (h : CanGive (EnumClass.text owner e) body) :
    ∃ elements, elementsText e (declared e) = .ok elements := by
  obtain ⟨type, -, h⟩ := canGive_bind h
  obtain ⟨enumType, -, h⟩ := canGive_bind h
  obtain ⟨objects, -, h⟩ := canGive_bind h
  obtain ⟨joiner, -, h⟩ := canGive_bind h
  obtain ⟨elements, helements, -⟩ := canGive_bind h
  exact ⟨elements, canGive_lift helements⟩

theorem emit_of_enumClass {m : TypeMapper} {owner : QualifiedName}
    (howner : m.enumClass e.token = .ok owner) :
    emit m e = draftClass m.settings owner (EnumClass.text owner e) := by
  rw [emit_eq, howner]
  rfl

/-- The class of an enum can be emitted exactly if its elements can be declared. -/
theorem exists_emit_iff {m : TypeMapper} {owner : QualifiedName}
    (howner : m.enumClass e.token = .ok owner) :
    (∃ emitted, emit m e = .ok emitted) ↔
      ∃ text, elementsText e (declared e) = .ok text := by
  rw [emit_of_enumClass howner]
  constructor
  · rintro ⟨emitted, h⟩
    obtain ⟨body, hbody, -⟩ := canGive_of_draftClass h
    exact exists_elementsText hbody
  · rintro ⟨elements, helements⟩
    cases h : draftClass m.settings owner (EnumClass.text owner e) with
    | ok emitted => exact ⟨emitted, rfl⟩
    | error failed =>
      have hfailed := DraftFrame.error_of_draftClass ((requestFrame m).keeps_enumText owner e) h
      rw [helements] at hfailed
      cases hfailed

theorem error_of_emit {m : TypeMapper} {owner : QualifiedName}
    (howner : m.enumClass e.token = .ok owner) {failed : GenerationError}
    (h : emit m e = .error failed) : elementsText e (declared e) = .error failed := by
  rw [emit_of_enumClass howner] at h
  exact DraftFrame.error_of_draftClass ((requestFrame m).keeps_enumText owner e) h

/-- What emitting an enum comes to, given its declared type: the values that fit the type have
literals unless they are too large; all its elements fit, and it fails only for one that is too
large. -/
structure EmitsUnlessOversized (m : TypeMapper) (typeName : Option String) (e : EnumType) :
    Prop where
  literal_iff : ∀ value, (∃ literal, elementLiteral e value = .ok literal) ↔
    fitsElementType typeName value = true ∧ ¬ IsOversized e.elementType value
  fits : ∀ element ∈ e.elements, fitsElementType typeName element.value = true
  emit_iff : (∃ emitted, emit m e = .ok emitted) ↔
    ∀ element ∈ e.elements, ¬ IsOversized e.elementType element.value
  error : ∀ failed, emit m e = .error failed → ∃ element ∈ e.elements,
    IsOversized e.elementType element.value ∧
      failed = .mismatchedElement e.token element.value e.elementType

/-- An enum of a valid document can be emitted unless it has a value that is too large. -/
theorem emitsUnlessOversized_of_bind {d : PackageDocument} {m : TypeMapper}
    (hvalid : d.validate = .ok ()) (hbind : d.bind = .ok m.package)
    (he : e ∈ Generation.enums m.package) :
    ∃ entry, d.types.get? e.token = some entry ∧
      EmitsUnlessOversized m entry.object.typeName e := by
  have hbound := isBound_of_bind hbind
  obtain ⟨-, entry, hentry, hdefines⟩ := entry_of_mem_enums hbound he
  obtain ⟨elements, helements, hdefined⟩ := enum_of_bindTypeEntry hdefines
  have htype : e.elementType = elementTypeOf entry := by rw [hdefined]
  have hliteral (value : Json.Value) : (∃ literal, elementLiteral e value = .ok literal) ↔
      fitsElementType entry.object.typeName value = true ∧
        ¬ IsOversized e.elementType value := by
    rw [fitsElementType_iff, ← htype]
    exact exists_elementLiteral_iff e value
  have hfits : ∀ element ∈ e.elements,
      fitsElementType entry.object.typeName element.value = true := by
    intro element helement
    rw [hdefined] at helement
    obtain ⟨written, hwritten, rfl⟩ := List.mem_map.1 helement
    exact fits_of_validate hvalid hentry helements written hwritten
  obtain ⟨owner, howner⟩ := enumClass_of_mem_enums hbound he
  refine ⟨entry, Dictionary.get?_eq_some_iff.2 hentry, hliteral, hfits, ?_, ?_⟩
  · rw [exists_emit_iff howner, exists_elementsText_iff, ← map_fst_declared e,
      List.forall_mem_map]
    refine forall₂_congr fun element helement => ?_
    rw [hliteral, and_iff_right]
    refine hfits element.1 ?_
    rw [← map_fst_declared e]
    exact List.mem_map_of_mem helement
  · intro failed h
    obtain ⟨element, helement, hfailed⟩ := error_of_elementsText (error_of_emit howner h)
    have hmem : element.1 ∈ e.elements := by
      rw [← map_fst_declared e]
      exact List.mem_map_of_mem helement
    rcases elementLiteral_cases e element.1.value with ⟨literal, hok⟩ | hmismatch
    · rw [hok] at hfailed
      cases hfailed
    · refine ⟨element.1, hmem, ?_, Except.error.inj (hfailed.symm.trans hmismatch)⟩
      by_contra hsmall
      obtain ⟨literal, hok⟩ := (hliteral _).2 ⟨hfits element.1 hmem, hsmall⟩
      rw [hok] at hmismatch
      cases hmismatch

/-- An enum of small whole numbers, and one of texts that declares no type. -/
theorem emitsUnlessOversized_of_bind_of_small :
    let d : PackageDocument := {
      name := "p"
      types := .ofList
        [("p:m:E", {
            object := { typeName := some "integer" }
            elements := some [{ value := .number (.int 1) }, { value := .number (.int (-5)) }] }),
          ("p:m:F", { elements := some [{ value := .string "a" }] })] }
    ∃ m : TypeMapper, d.validate = .ok () ∧ d.bind = .ok m.package ∧
      (Generation.enums m.package).map EnumType.token = ["p:m:E", "p:m:F"] ∧
      ∀ e ∈ Generation.enums m.package, (∃ emitted, emit m e = .ok emitted) ∧
        ∃ entry, d.types.get? e.token = some entry ∧
          EmitsUnlessOversized m entry.object.typeName e := by
  intro d
  have hvalid : d.validate.toOption = some () := by decide +kernel
  have hbound : d.bind.toOption.map (fun package => ((Generation.enums package).map EnumType.token,
      (Generation.enums package).all fun e => (emit ⟨package, {}, {}⟩ e).toOption.isSome)) =
        some (["p:m:E", "p:m:F"], true) := by
    decide +kernel
  have hvalid := toOption_eq_some.1 hvalid
  obtain ⟨package, hpackage, hparts⟩ := Option.map_eq_some_iff.1 hbound
  obtain ⟨htokens, hemitted⟩ := Prod.mk.inj hparts
  have hbind : d.bind = .ok package := toOption_eq_some.1 hpackage
  refine ⟨⟨package, {}, {}⟩, hvalid, hbind, htokens, fun e he => ⟨?_, ?_⟩⟩
  · obtain ⟨emitted, h⟩ := Option.isSome_iff_exists.1 (List.all_eq_true.1 hemitted e he)
    exact ⟨emitted, toOption_eq_some.1 h⟩
  · exact emitsUnlessOversized_of_bind hvalid hbind he

/-- A valid document with an enum of whole numbers that cannot be emitted: its only element is one
more than the largest signed word. -/
theorem not_emitted_of_unsigned :
    let d : PackageDocument := {
      name := "p"
      types := .ofList [("p:m:E", {
        object := { typeName := some "integer" }
        elements := some [{ value := .number (.int 9223372036854775808) }] })] }
    ∃ package, d.validate = .ok () ∧ d.bind = .ok package ∧
      ∃ e ∈ Generation.enums package, ∀ emitted, emit ⟨package, {}, {}⟩ e ≠ .ok emitted := by
  intro d
  have hvalid : d.validate.toOption = some () := by decide +kernel
  have hbound : d.bind.toOption.map (fun package =>
      (Generation.enums package).any fun e => (emit ⟨package, {}, {}⟩ e).toOption.isNone) =
        some true := by
    decide +kernel
  obtain ⟨package, hpackage, hfails⟩ := Option.map_eq_some_iff.1 hbound
  obtain ⟨e, he, hnone⟩ := List.any_eq_true.1 hfails
  refine ⟨package, toOption_eq_some.1 hvalid, toOption_eq_some.1 hpackage, e, he, ?_⟩
  intro emitted h
  rw [h] at hnone
  cases hnone

end Java.EnumClass

end SchemaToJava
