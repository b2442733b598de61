import SchemaToJava.Proofs.KeptDocuments
import SchemaToJava.Proofs.LoadingStages

/-!
Documents that are written and read again as texts. The only numbers in a written document are
those of the values that it stores, so that its text is read back to the very tree it was written
from if no floating-point number is among them, and the tree is read as the document.
-/
namespace SchemaToJava.Json

open Reading

def Value.HasNoFloat (v : Value) : Prop := ∀ n ∈ v.numbers, ∃ i, n = .int i

theorem mem_numbers_array {n : Number} {items : List Value} :
    n ∈ (Value.array items).numbers ↔ ∃ x ∈ items, n ∈ x.numbers := by
  rw [Value.numbers]
  induction items with
  | nil => simp [Value.itemsNumbers]
  | cons x rest ih => simp [Value.itemsNumbers, ih]

theorem mem_numbers_object {n : Number} {members : List (String × Value)} :
    n ∈ (Value.object members).numbers ↔ ∃ m ∈ members, n ∈ m.2.numbers := by
  rw [Value.numbers]
  induction members with
  | nil => simp [Value.membersNumbers]
  | cons m rest ih => simp [Value.membersNumbers, ih]

@[simp]
theorem hasNoFloat_bool (b : Bool) : (Value.bool b).HasNoFloat := by
  simp [Value.HasNoFloat, Value.numbers]

@[simp]
theorem hasNoFloat_string (s : String) : (Value.string s).HasNoFloat := by
  simp [Value.HasNoFloat, Value.numbers]

@[simp]
theorem hasNoFloat_array {items : List Value} :
    (Value.array items).HasNoFloat ↔ ∀ x ∈ items, x.HasNoFloat := by
  constructor
  · exact fun h x hx n hn => h n (mem_numbers_array.2 ⟨x, hx, hn⟩)
  · intro h n hn
    obtain ⟨x, hx, hn⟩ := mem_numbers_array.1 hn
    exact h x hx n hn

theorem hasNoFloat_object {members : List (String × Value)} :
    (Value.object members).HasNoFloat ↔ ∀ m ∈ members, m.2.HasNoFloat := by
  constructor
  · exact fun h m hm n hn => h n (mem_numbers_object.2 ⟨m, hm, hn⟩)
  · intro h n hn
    obtain ⟨m, hm, hn⟩ := mem_numbers_object.1 hn
    exact h m hm n hn

/-- The numbers of a value that fits are within their range. -/
theorem Value.FitsIn.fits {depth : Nat} {v : Value} (h : v.FitsIn depth) :
    ∀ n ∈ v.numbers, n.Fits := by
  induction h with
  | null | bool | string => simp [Value.numbers]
  | number h => simpa [Value.numbers] using h
  | array _ ih =>
    intro n hn
    obtain ⟨x, hx, hn⟩ := mem_numbers_array.1 hn
    exact ih x hx n hn
  | object _ ih =>
    intro n hn
    obtain ⟨m, hm, hn⟩ := mem_numbers_object.1 hn
    exact ih m hm n hn

end SchemaToJava.Json

namespace SchemaToJava.Schema

open Json Reading

/-- What is written as the field, if anything, has no floating-point number. -/
def HasNoFloat (field : Field) : Prop := ∀ m ∈ field, m.2.HasNoFloat

section Fields

variable {α : Type} (name : String)

@[simp]
theorem hasNoFloat_some {v : Value} : HasNoFloat (some (name, v)) ↔ v.HasNoFloat := by
  simp [HasNoFloat]

@[simp]
theorem hasNoFloat_membersOf {written : List Field} :
    (Value.object (membersOf written)).HasNoFloat ↔ ∀ field ∈ written, HasNoFloat field := by
  rw [hasNoFloat_object]
  constructor
  · intro h field hfield m hm
    exact h m (List.mem_filterMap.2 ⟨field, hfield, hm⟩)
  · intro h m hm
    obtain ⟨field, hfield, hm⟩ := List.mem_filterMap.1 hm
    exact h field hfield m hm

@[simp]
theorem hasNoFloat_textField (b : Option String) : HasNoFloat (textField name b) := by
  cases b <;> simp [HasNoFloat, textField]

@[simp]
theorem hasNoFloat_flagField (b : Bool) : HasNoFloat (flagField name b) := by
  cases b <;> simp [HasNoFloat, flagField]

theorem hasNoFloat_listField {write : α → Value} {xs : List α} :
    HasNoFloat (if xs.isEmpty then none else some (name, .array (xs.map write))) ↔
      ∀ x ∈ xs, (write x).HasNoFloat := by
  cases xs <;> simp [HasNoFloat]

@[simp]
theorem hasNoFloat_textsField (xs : List String) : HasNoFloat (textsField name xs) :=
  (hasNoFloat_listField name).2 fun s _ => hasNoFloat_string s

@[simp]
theorem hasNoFloat_valueField {b : Option Value} :
    HasNoFloat (valueField name b) ↔ ∀ v ∈ b, v.HasNoFloat := by
  cases b <;> simp [HasNoFloat, valueField]

@[simp]
theorem hasNoFloat_dictionaryField {write : α → Value} {d : Dictionary String α} :
    HasNoFloat (dictionaryField name write d) ↔ ∀ x ∈ d.values, (write x).HasNoFloat := by
  have hobject : (ofDictionary write d).HasNoFloat ↔ ∀ x ∈ d.values, (write x).HasNoFloat := by
    rw [ofDictionary, hasNoFloat_object, List.forall_mem_map, Dictionary.values,
      List.forall_mem_map]
  cases hempty : d.isEmpty with
  | false => simp [HasNoFloat, dictionaryField, hempty, hobject]
  | true => simp [HasNoFloat, dictionaryField, hempty, Dictionary.values, List.isEmpty_iff.1 hempty]

end Fields

section StoredValues

def PropertyEntry.storedValues (p : PropertyEntry) : List Value :=
  p.constant.toList ++ p.default.toList ++ p.language.values

def ObjectEntry.storedValues (o : ObjectEntry) : List Value :=
  o.properties.values.flatMap PropertyEntry.storedValues

def TypeEntry.storedValues (t : TypeEntry) : List Value :=
  t.object.storedValues ++ (t.elements.getD []).map EnumEntry.value

def ResourceEntry.storedValues (r : ResourceEntry) : List Value :=
  r.object.storedValues ++ r.inputs.values.flatMap PropertyEntry.storedValues ++
    r.state.toList.flatMap ObjectEntry.storedValues

def FunctionEntry.storedValues (f : FunctionEntry) : List Value :=
  f.inputs.toList.flatMap ObjectEntry.storedValues ++
    f.outputs.toList.flatMap ObjectEntry.storedValues

/-- The JSON values in a document: constants, defaults, elements of enums, and the settings for the
target languages. -/
def PackageDocument.storedValues (d : PackageDocument) : List Value :=
  d.config.properties.values.flatMap PropertyEntry.storedValues ++
    d.types.values.flatMap TypeEntry.storedValues ++
    d.provider.toList.flatMap ResourceEntry.storedValues ++
    d.resources.values.flatMap ResourceEntry.storedValues ++
    d.functions.values.flatMap FunctionEntry.storedValues ++ d.language.values

mutual

theorem hasNoFloat_typeWritten : (t : TypeExpr) → ∀ field ∈ t.written, HasNoFloat field
  | ⟨typeName, reference, items, additional, oneOf, plain⟩ => by
    have hitems := hasNoFloat_optionValue items
    have hadditional := hasNoFloat_optionValue additional
    have honeOf := hasNoFloat_alternatives oneOf
    rw [TypeExpr.written]
    simpa using ⟨hitems, hadditional, honeOf⟩

theorem hasNoFloat_optionValue :
    (o : Option TypeExpr) → ∀ v, optionValue o = some v → v.HasNoFloat
  | none => by simp [optionValue]
  | some t => by simpa [optionValue] using hasNoFloat_typeWritten t

theorem hasNoFloat_alternatives :
    (o : Option (List TypeExpr)) → ∀ v, alternatives o = some v → v.HasNoFloat
  | none => by simp [alternatives]
  | some ts => by simpa [alternatives] using hasNoFloat_typeValues ts

theorem hasNoFloat_typeValues : (ts : List TypeExpr) → ∀ v ∈ typeValues ts, v.HasNoFloat
  | [] => by simp [typeValues]
  | t :: ts => by
    simpa [typeValues] using And.intro (hasNoFloat_typeWritten t) (hasNoFloat_typeValues ts)

end

theorem hasNoFloat_property {p : PropertyEntry} :
    p.toValue.HasNoFloat ↔ ∀ v ∈ p.storedValues, v.HasNoFloat := by
  have htype := hasNoFloat_typeWritten p.type
  have hsources (d : DefaultSources) : d.toValue.HasNoFloat := by
    simp [DefaultSources.toValue, DefaultSources.written]
  rw [PropertyEntry.toValue, hasNoFloat_membersOf, List.forall_mem_append, and_iff_right htype]
  simp [-List.mem_append, List.forall_mem_append, PropertyEntry.written, hsources,
    PropertyEntry.storedValues]

theorem hasNoFloat_objectWritten {o : ObjectEntry} :
    (∀ field ∈ o.written, HasNoFloat field) ↔ ∀ v ∈ o.storedValues, v.HasNoFloat := by
  rw [ObjectEntry.storedValues, List.forall_mem_flatMap]
  simp [ObjectEntry.written, hasNoFloat_property]

theorem hasNoFloat_objectEntry {o : ObjectEntry} :
    o.toValue.HasNoFloat ↔ ∀ v ∈ o.storedValues, v.HasNoFloat := by
  rw [ObjectEntry.toValue, hasNoFloat_membersOf, hasNoFloat_objectWritten]

theorem hasNoFloat_typeEntry {t : TypeEntry} :
    t.toValue.HasNoFloat ↔ ∀ v ∈ t.storedValues, v.HasNoFloat := by
  have helement (e : EnumEntry) : e.toValue.HasNoFloat ↔ e.value.HasNoFloat := by
    simp [EnumEntry.toValue, EnumEntry.written]
  rw [TypeEntry.toValue, hasNoFloat_membersOf, List.forall_mem_append, hasNoFloat_objectWritten,
    TypeEntry.storedValues, List.forall_mem_append, List.forall_mem_map, TypeEntry.written]
  cases t.elements <;> simp [helement]

theorem hasNoFloat_resource {r : ResourceEntry} :
    r.toValue.HasNoFloat ↔ ∀ v ∈ r.storedValues, v.HasNoFloat := by
  have halias (a : AliasEntry) : a.toValue.HasNoFloat := by
    simp [AliasEntry.toValue, AliasEntry.written]
  rw [ResourceEntry.toValue, hasNoFloat_membersOf, List.forall_mem_append,
    hasNoFloat_objectWritten, ResourceEntry.storedValues, ResourceEntry.written]
  simp [-List.mem_append, -List.mem_flatMap, -List.isEmpty_iff, List.forall_mem_append,
    List.forall_mem_flatMap, hasNoFloat_property, hasNoFloat_objectEntry, hasNoFloat_listField,
    halias]

theorem hasNoFloat_function {f : FunctionEntry} :
    f.toValue.HasNoFloat ↔ ∀ v ∈ f.storedValues, v.HasNoFloat := by
  rw [FunctionEntry.toValue, hasNoFloat_membersOf, FunctionEntry.storedValues,
    FunctionEntry.written]
  simp [-List.mem_append, -List.mem_flatMap, List.forall_mem_append, List.forall_mem_flatMap,
    hasNoFloat_objectEntry]

theorem hasNoFloat_configField {c : ConfigSection} :
    HasNoFloat (if c.isEmpty then none else some ("config", c.toValue)) ↔
      ∀ p ∈ c.properties.values, ∀ v ∈ p.storedValues, v.HasNoFloat := by
  split
  · next hempty =>
    obtain rfl := eq_blank_of_isEmpty hempty
    exact ⟨fun _ p hp => (by cases hp), fun _ m hm => (by cases hm)⟩
  · simp [ConfigSection.toValue, ConfigSection.written, hasNoFloat_property]

/-- The numbers in a written document are those of the values that it stores. -/
theorem hasNoFloat_package {d : PackageDocument} :
    d.toValue.HasNoFloat ↔ ∀ v ∈ d.storedValues, v.HasNoFloat := by
  rw [PackageDocument.toValue, hasNoFloat_membersOf, PackageDocument.storedValues,
    PackageDocument.written]
  simp [-List.mem_append, -List.mem_flatMap, List.forall_mem_append, List.forall_mem_flatMap,
    hasNoFloat_configField, hasNoFloat_typeEntry, hasNoFloat_resource, hasNoFloat_function]

end StoredValues

theorem isJson_text (d : PackageDocument) : isJson d.text = true := by
  have hbrace : "\x7b".toList = ['\x7b'] := rfl
  rw [isJson, PackageDocument.text, PackageDocument.toValue, Value.text, String.append_assoc,
    String.toList_append, hbrace, Text.trimStart, List.singleton_append,
    List.dropWhile_cons_of_neg (by decide), List.head?_cons]
  rfl

/-- What is read from a JSON text can be read again from what is written of it. -/
theorem recovered_of_parseDocument {text : String} {d : PackageDocument}
    (hjson : isJson text = true) (h : parseDocument text = .ok d) :
    Recovered (readPackage jsonDepth) PackageDocument.toValue jsonDepth d := by
  obtain ⟨hread, -⟩ := readJson_eq_ok.1 ((parseDocument_eq_ok hjson).1 h)
  exact recovers_readPackage jsonDepth _ d (isPlain_documentOf text) (gives_of_result hread)

/-- A document that has been read from a JSON text and stores no floating-point number is read again
from its own text. -/
theorem parseDocument_text {text : String} {d : PackageDocument} (hjson : isJson text = true)
    (h : parseDocument text = .ok d) (hfloat : ∀ v ∈ d.storedValues, v.HasNoFloat) :
    parseDocument d.text = .ok d := by
  obtain ⟨hfits, hagain⟩ := recovered_of_parseDocument hjson h
  have hexact : AreExact d.toValue.numbers := fun n hn =>
    ⟨hfits.fits n hn, hasNoFloat_package.2 hfloat n hn⟩
  have hread : readJson readPackage d.text = .ok d := by
    rw [readJson, PackageDocument.text, documentOf_text hexact]
    dsimp only
    rw [hagain]
    rfl
  rw [parseDocument, if_pos (isJson_text d), hread]

/-- An escape, a null, a false flag, a record given as an array and a member that is no field are
not written as they were given. -/
theorem parseDocument_text_of_positional :
    let text := " \x7b\"name\": \"\\u0070\", \"license\": null, \"config\": [\x7b\"x\": " ++
      "\x7b\"secret\": false, \"default\": [3, -1]\x7d\x7d, [\"x\"]], \"rate\": 0.5\x7d"
    let written := "\x7b\"name\":\"p\",\"config\":\x7b\"variables\":\x7b\"x\":" ++
      "\x7b\"default\":[3,-1]\x7d\x7d,\"required\":[\"x\"]\x7d\x7d"
    ∃ d, isJson text = true ∧ parseDocument text = .ok d ∧
      (∀ v ∈ d.storedValues, v.HasNoFloat) ∧ d.text = written ∧ parseDocument written = .ok d := by
  intro text written
  have hjson : isJson text = true := by decide +kernel
  have hread : (parseDocument text).toOption.map
      (fun d => (d.storedValues.flatMap Value.numbers, d.text)) =
      some ([.int 3, .int (-1)], written) := by decide +kernel
  obtain ⟨d, hd, hwritten⟩ := Option.map_eq_some_iff.1 hread
  obtain ⟨hnumbers, htext⟩ := Prod.mk.inj hwritten
  have hparse : parseDocument text = .ok d := Outcome.toOption_eq_some.1 hd
  have hfloat : ∀ v ∈ d.storedValues, v.HasNoFloat := by
    intro v hv n hn
    have hmem : n ∈ d.storedValues.flatMap Value.numbers := List.mem_flatMap.2 ⟨v, hv, hn⟩
    rw [hnumbers] at hmem
    simp only [List.mem_cons, List.not_mem_nil, or_false] at hmem
    rcases hmem with rfl | rfl <;> exact ⟨_, rfl⟩
  exact ⟨d, hjson, hparse, hfloat, htext, htext ▸ parseDocument_text hjson hparse hfloat⟩

end SchemaToJava.Schema
