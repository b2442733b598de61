import Mathlib.Order.WellFounded
import SchemaToJava.Proofs.EmittedEnums

/-!
The constant that a default of an enum stands for. Validation tells the values of the elements apart
by their texts, but a default is looked up by what its number rounds to. So a default that is the
value of an element stands for this element unless an earlier one has a number that rounds alike;
then it stands for the first such element.
-/
namespace SchemaToJava

open Package Schema Outcome

namespace Json.Value

/-- Two numbers with the same nearest floating-point number. -/
def RoundAlike (a b : Value) : Prop :=
  ∃ x y, a = .number x ∧ b = .number y ∧ x.toBinary64.sameValue y.toBinary64 = true

theorem agrees_number_iff (x y : Number) :
    (number x).agrees (number y) = true ↔
      number x = number y ∨ RoundAlike (number x) (number y) := by
  constructor
  · intro h
    exact .inr ⟨x, y, rfl, rfl, h⟩
  · rintro (h | ⟨x', y', hx, hy, h⟩)
    · cases h
      change x.toBinary64.sameValue x.toBinary64 = true
      simp [Floating.Binary64.sameValue]
    · cases hx
      cases hy
      exact h

/-- Among the values that an enum may have only numbers can agree without being equal. -/
theorem agrees_iff {type : Primitive} {a b : Value} (ha : IsElementOf type a)
    (hb : IsElementOf type b) : a.agrees b = true ↔ a = b ∨ RoundAlike a b := by
  cases ha with
  | string s =>
    cases hb
    simp [agrees, number?, same, RoundAlike]
  | bool s =>
    cases hb
    simp [agrees, number?, same, RoundAlike]
  | int i =>
    cases hb
    exact agrees_number_iff _ _
  | number x =>
    cases hb
    exact agrees_number_iff _ _

end Json.Value

namespace Schema

/-- The values of checked elements differ in their texts, from one another and from those before. -/
theorem texts_of_checkElements {token : String} {typeName : Option String} {names : List String}
    {values : List (String × Nat)} {place : Nat} {entries : List EnumEntry}
    (h : checkElements token typeName names values place entries = .ok ()) :
    (∀ entry ∈ entries, values.lookup entry.value.text = none) ∧
      entries.Pairwise fun a b => a.value.text ≠ b.value.text := by
  induction entries generalizing names values place with
  | nil => exact ⟨fun entry hentry => absurd hentry List.not_mem_nil, .nil⟩
  | cons first rest ih =>
    rw [checkElements] at h
    split at h
    · cases h
    · cases h
    · next hname hvalue =>
      split at h
      · obtain ⟨hbefore, hrest⟩ := ih h
        have hapart : ∀ entry ∈ rest,
            first.value.text ≠ entry.value.text ∧ values.lookup entry.value.text = none := by
          intro entry hentry
          have hlookup := hbefore entry hentry
          rw [List.lookup_cons] at hlookup
          split at hlookup
          · cases hlookup
          · next hne => exact ⟨fun heq => by simp [heq] at hne, hlookup⟩
        refine ⟨?_, List.pairwise_cons.2 ⟨fun entry hentry => (hapart entry hentry).1, hrest⟩⟩
        intro entry hentry
        rcases List.mem_cons.1 hentry with rfl | hentry
        · exact hvalue
        · exact (hapart entry hentry).2
      · cases h

end Schema

namespace Java

open DefaultExpression EnumClass
open Json.Value (RoundAlike)

variable {m : TypeMapper} {e : EnumType}

/-- An enum that is found by a class is one of the package, and has this class. -/
theorem enumByClass?_eq_some {name : QualifiedName} (h : m.enumByClass? name = some e) :
    e ∈ Generation.enums m.package ∧ m.enumClass e.token = .ok name := by
  obtain ⟨definition, hdefinition, hfound⟩ := List.exists_of_findSome?_eq_some h
  cases definition with
  | enum found =>
    dsimp only at hfound
    split at hfound
    · next hclass =>
      cases hfound
      refine ⟨Generation.mem_enums.2 hdefinition, ?_⟩
      unfold TypeMapper.isClassOfEnum at hclass
      split at hclass
      · next other hother => rw [hother, beq_iff_eq.1 hclass]
      · cases hclass
    · cases hfound
  | object o => cases hfound
  | primitiveAlias token t => cases hfound

/-- The last segment of its package tells the class of an enum from those with literals of their
own. -/
theorem getLast?_segments_enumClass {token : String} {name : QualifiedName}
    (h : m.enumClass token = .ok name) : name.segments.getLast? = some enumsSegment := by
  unfold TypeMapper.enumClass at h
  obtain ⟨t, -, h⟩ := bind_eq_ok.1 h
  obtain rfl := pure_eq_ok.1 h
  have hne : enumsSegment.isEmpty = false := by decide
  simp [QualifiedName.append, hne]

/-- A default of the type of an enum is one of the constants of that enum. -/
theorem literal_eq_enumLiteral {type : TypeShape} (htype : m.enumByClass? type.base = some e)
    (property : String) (value : Json.Value) :
    literal m property type value = enumLiteral e property type value := by
  have hlast := getLast?_segments_enumClass (enumByClass?_eq_some htype).2
  have hne : ∀ name : QualifiedName, name.segments.getLast? ≠ some enumsSegment →
      type.is name = false := by
    intro name hname
    refine beq_eq_false_iff_ne.2 fun heq => hname ?_
    rw [← heq, hlast]
  have heither : type.either? = none := by
    unfold TypeShape.either?
    split
    · rw [hne Library.either (by decide)]
      rfl
    · rfl
  have hscalar : scalarLiteral m property type value = enumLiteral e property type value := by
    simp only [scalarLiteral, hne Library.boolean (by decide), hne Library.integer (by decide),
      hne Library.double (by decide), hne Library.string (by decide),
      hne Library.jsonElement (by decide), htype, Bool.false_eq_true, if_false]
  simp only [literal, resolve, heither, hscalar, bind_assoc, pure_bind, bind_pure]

def identifierAt (e : EnumType) (i : Fin e.elements.length) : String :=
  (identifiers e).get ⟨i, by rw [length_identifiers]; exact i.isLt⟩

theorem identifierAt_inj {i j : Fin e.elements.length} (h : identifierAt e i = identifierAt e j) :
    i = j :=
  Fin.ext ((nodup_identifiers e).getElem_inj_iff.1 h)

/-- The literal names the first element whose value agrees. -/
theorem enumLiteral_eq {type : TypeShape} {value : Json.Value} {j : Fin e.elements.length}
    (hagrees : e.elements[j].value.agrees value = true)
    (hfirst : ∀ k < j, e.elements[k].value.agrees value = false) (property : String) :
    enumLiteral e property type value =
      (fun className => className ++ "." ++ identifierAt e j) <$> Drafting.code type := by
  have hfind : (e.elements.zip (identifiers e)).find?
      (fun element => element.1.value.agrees value) = some (e.elements[j], identifierAt e j) := by
    refine List.find?_eq_some_iff_getElem.2 ⟨hagrees, j, ?_, ?_, ?_⟩
    · rw [List.length_zip, length_identifiers, Nat.min_self]
      exact j.isLt
    · rw [List.getElem_zip]
      rfl
    · intro k hk
      rw [List.getElem_zip]
      simpa using hfirst ⟨k, hk.trans j.isLt⟩ hk
  simp only [enumLiteral, hfind, bind_pure_comp]

/-- The element that the value of the element at `i` stands for: the first whose number rounds
alike. -/
structure Picks (e : EnumType) (i j : Fin e.elements.length) : Prop where
  le : j ≤ i
  alike : j = i ∨ RoundAlike e.elements[j].value e.elements[i].value
  first : ∀ k < j, ¬ RoundAlike e.elements[k].value e.elements[i].value

theorem exists_picks (i : Fin e.elements.length) : ∃ j, Picks e i j := by
  let alike : Set (Fin e.elements.length) :=
    {j | j = i ∨ RoundAlike e.elements[j].value e.elements[i].value}
  obtain ⟨j, halike, hleast⟩ := (measure Fin.val).wf.has_min alike ⟨i, .inl rfl⟩
  refine ⟨j, ?_, halike, ?_⟩
  · exact Fin.not_lt.1 (hleast i (.inl rfl))
  · intro k hk hround
    exact hleast k (.inr hround) hk

theorem Picks.eq_iff {i j : Fin e.elements.length} (h : Picks e i j) :
    j = i ↔ ∀ k < i, ¬ RoundAlike e.elements[k].value e.elements[i].value := by
  constructor
  · rintro rfl
    exact h.first
  · intro hfirst
    by_contra hne
    have hlt : j < i := Nat.lt_of_le_of_ne h.le (Fin.val_ne_of_ne hne)
    exact hfirst j hlt (h.alike.resolve_left hne)

/-- The elements of an enum of a valid document have values of its type with different texts. -/
theorem elements_of_bind {d : PackageDocument} (hvalid : d.validate = .ok ())
    (hbind : d.bind = .ok m.package) (he : e ∈ Generation.enums m.package) :
    (∀ element ∈ e.elements, IsElementOf e.elementType element.value) ∧
      e.elements.Pairwise fun a b => a.value.text ≠ b.value.text := by
  have hbound := isBound_of_bind hbind
  obtain ⟨-, entry, hentry, hdefines⟩ := entry_of_mem_enums hbound he
  obtain ⟨elements, helements, hdefined⟩ := enum_of_bindTypeEntry hdefines
  have hchecked := checkElements_of_validate hvalid hentry helements
  rw [hdefined]
  constructor
  · intro element helement
    obtain ⟨written, hwritten, rfl⟩ := List.mem_map.1 helement
    have hfits := fits_of_checkElements hchecked written hwritten
    exact (fitsElementType_iff entry written.value).1 hfits
  · exact List.pairwise_map.2 (texts_of_checkElements hchecked).2

/-- What the value of the element at `i` is as a default: the text for the class of the enum, which
a file has for every qualified type, and the constant of the element that it picks. This is the
element itself unless an earlier number rounds alike. -/
structure StandsFor (m : TypeMapper) (e : EnumType) (type : TypeShape)
    (i j : Fin e.elements.length) : Prop where
  picks : Picks e i j
  literal : ∀ property, literal m property type e.elements[i].value =
    (fun className => className ++ "." ++ identifierAt e j) <$> Drafting.code type
  named : type.IsQualified → ∀ draft, ∃ className after,
    (Drafting.code type).run.run draft = (.ok className, after)
  own_iff : identifierAt e j = identifierAt e i ↔
    ∀ k < i, ¬ RoundAlike e.elements[k].value e.elements[i].value

/-- A default that is the value of an element stands for the first element with a number that rounds
alike, in every file and for every type of the class of the enum. -/
theorem standsFor_of_bind {d : PackageDocument} (hvalid : d.validate = .ok ())
    (hbind : d.bind = .ok m.package) {type : TypeShape}
    (htype : m.enumByClass? type.base = some e) (i : Fin e.elements.length) :
    ∃ j, StandsFor m e type i j := by
  obtain ⟨he, -⟩ := enumByClass?_eq_some htype
  obtain ⟨hfits, htexts⟩ := elements_of_bind hvalid hbind he
  obtain ⟨j, hpicks⟩ := exists_picks i
  have hagrees (k : Fin e.elements.length) : e.elements[k].value.agrees e.elements[i].value = true ↔
      e.elements[k].value = e.elements[i].value ∨
        RoundAlike e.elements[k].value e.elements[i].value :=
    Json.Value.agrees_iff (hfits _ (List.getElem_mem k.isLt)) (hfits _ (List.getElem_mem i.isLt))
  have hearlier : ∀ k < j, e.elements[k].value.agrees e.elements[i].value = false := by
    intro k hk
    refine Bool.eq_false_iff.2 fun h => ?_
    rcases (hagrees k).1 h with hequal | hround
    · have hlt : k < i := Fin.lt_of_lt_of_le hk hpicks.le
      exact List.pairwise_iff_getElem.1 htexts k i k.isLt i.isLt hlt
        (congrArg Json.Value.text hequal)
    · exact hpicks.first k hk hround
  have hfound : e.elements[j].value.agrees e.elements[i].value = true := by
    refine (hagrees j).2 ?_
    rcases hpicks.alike with rfl | hround
    · exact .inl rfl
    · exact .inr hround
  refine ⟨j, hpicks, ?_, ?_, ?_⟩
  · intro property
    rw [literal_eq_enumLiteral htype, enumLiteral_eq hfound hearlier]
  · intro hqualified draft
    have hkeeps := (requestFrame m).keeps_code (E := fun _ => False) hqualified draft
    cases hrun : (Drafting.code type).run.run draft with
    | mk outcome after =>
      cases outcome with
      | error failed => exact absurd (congrArg Prod.fst hrun) fun h => hkeeps.2 failed h
      | ok className => exact ⟨className, after, rfl⟩
  · rw [← hpicks.eq_iff]
    exact ⟨identifierAt_inj, fun h => h ▸ rfl⟩

/-- An enum of whole numbers, the first two of which round alike. -/
def neighboursDocument : PackageDocument where
  name := "p"
  types := .ofList
    [("p:m:E", {
      object := { typeName := some "integer" }
      elements := some
        [{ value := .number (.int 9007199254740992) }, { value := .number (.int 9007199254740993) },
          { value := .number (.int 7) }] })]

def neighboursClass : QualifiedName := ⟨["com", "pulumi", "p", "m", "enums"], "E"⟩

/-- The constants that the values of an enum pick as defaults in a file, and the identifiers of its
elements. -/
def pickedConstants (package : Package) (name owner : QualifiedName) :
    Option (List (Option String) × List String) := do
  let m : TypeMapper := ⟨package, {}, {}⟩
  let e ← m.enumByClass? name
  let picked := e.elements.map fun element =>
    ((literal m "x" (.ofClass name) element.value).run.run (.start {} owner)).1.toOption
  return (picked, identifiers e)

/-- The second of the two values stands for the first element. -/
theorem standsFor_of_bind_of_neighbours :
    ∃ m : TypeMapper, ∃ e : EnumType, neighboursDocument.validate = .ok () ∧
      neighboursDocument.bind = .ok m.package ∧ m.enumByClass? neighboursClass = some e ∧
      ∀ i : Fin e.elements.length, ∃ j, StandsFor m e (.ofClass neighboursClass) i j := by
  have hvalid : neighboursDocument.validate.toOption = some () := by decide +kernel
  have hbound : neighboursDocument.bind.toOption.map
      (fun package => ((⟨package, {}, {}⟩ : TypeMapper).enumByClass? neighboursClass).isSome) =
        some true := by
    decide +kernel
  have hvalid := toOption_eq_some.1 hvalid
  obtain ⟨package, hpackage, hfound⟩ := Option.map_eq_some_iff.1 hbound
  obtain ⟨e, he⟩ := Option.isSome_iff_exists.1 hfound
  have hbind : neighboursDocument.bind = .ok package := toOption_eq_some.1 hpackage
  refine ⟨⟨package, {}, {}⟩, e, hvalid, hbind, he, fun i => ?_⟩
  have hstands : ∃ j, StandsFor ⟨package, {}, {}⟩ e (.ofClass neighboursClass) i j :=
    standsFor_of_bind hvalid hbind he i
  exact hstands

/-- In a valid document, the value of the second element of an enum picks the constant of the first
one as a default. -/
theorem not_own_constant_of_neighbours :
    neighboursDocument.validate = .ok () ∧ ∃ package, neighboursDocument.bind = .ok package ∧
      pickedConstants package neighboursClass ⟨["com", "pulumi", "p"], "Config"⟩ =
        some ([some "E._9007199254740992", some "E._9007199254740992", some "E._7"],
          ["_9007199254740992", "_9007199254740993", "_7"]) := by
  have hvalid : neighboursDocument.validate.toOption = some () := by decide +kernel
  have hbound : neighboursDocument.bind.toOption.bind
      (fun package => pickedConstants package neighboursClass ⟨["com", "pulumi", "p"], "Config"⟩) =
        some ([some "E._9007199254740992", some "E._9007199254740992", some "E._7"],
          ["_9007199254740992", "_9007199254740993", "_7"]) := by
    decide +kernel
  obtain ⟨package, hpackage, hpicked⟩ := Option.bind_eq_some_iff.1 hbound
  exact ⟨toOption_eq_some.1 hvalid, package, toOption_eq_some.1 hpackage, hpicked⟩

end Java

end SchemaToJava
