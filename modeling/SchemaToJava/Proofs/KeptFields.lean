import SchemaToJava.Proofs.Dictionaries
import SchemaToJava.Proofs.ReadValues
import SchemaToJava.Schema.Document.Writing

/-!
Fields that are written and read again. A field that is left out stands for what a record has
before any field is read; a field that is written is read as what it was written from.
-/
namespace SchemaToJava.Reading

open Json Outcome Schema

variable {α β : Type} {n : Node} {depth : Nat} {name : String}

theorem recovers_readText (depth : Nat) : Recovers (readText depth) .string depth :=
  fun _ _ _ _ => ⟨.string, rfl⟩

theorem not_vacant {s : Scalar} (h : s.IsPlain) : s.vacant = false := by
  cases h <;> rfl

/-- A list is read item by item. -/
theorem gives_listIn {item : Option (Node → Read α)} {xs : List α} (hn : n.IsPlain)
    (h : Gives (listIn item n) xs) : ∃ read, item = some read ∧
      ∀ x ∈ xs, ∃ m, m.IsPlain ∧ Gives (read m) x := by
  unfold listIn at h
  rw [follow_of_isPlain hn, pure_bind] at h
  cases hn with
  | scalar hs =>
    dsimp only at h
    rw [not_vacant hs] at h
    exact absurd h not_gives_throw
  | @list items brokenOff typed positional hitems =>
    cases item with
    | none => exact absurd h not_gives_throw
    | some read =>
      obtain ⟨ys, hys, h⟩ := h.bind
      obtain ⟨_, -, h⟩ := h.bind
      rw [gives_pure] at h
      subst h
      refine ⟨read, rfl, fun y hy => ?_⟩
      obtain ⟨m, hm, hread⟩ := exists_left_of_mem hys.mapM hy
      exact ⟨m, hitems m hm, hread⟩
  | table => exact absurd h not_gives_throw
  | broken => exact absurd h not_gives_throw

/-- Lists are recovered if their items are. -/
theorem recovers_listOf {item : Reader α} {write : α → Value}
    (hitem : ∀ d < depth, Recovers (item d) write d) :
    Recovers (listOf item depth) (fun xs => .array (xs.map write)) depth := by
  intro n xs hn h
  obtain ⟨read, hread, hall⟩ := gives_listIn hn h
  cases depth with
  | zero => cases hread
  | succ depth =>
    obtain rfl := Option.some.inj hread
    have hrecovered : ∀ x ∈ xs, Recovered (item depth) write depth x := by
      intro x hx
      obtain ⟨m, hm, hx⟩ := hall x hx
      exact hitem depth (Nat.lt_succ_self depth) m x hm hx
    have hagain : ((xs.map write).map Node.ofValue).mapM (item depth) = pure (xs.map id) := by
      rw [List.map_map]
      exact mapM_eq_pure fun x hx => (hrecovered x hx).again
    constructor
    · refine .array fun v hv => ?_
      obtain ⟨x, hx, rfl⟩ := List.mem_map.1 hv
      exact (hrecovered x hx).fits
    · unfold listOf belowDepth listIn Node.ofValue
      rw [ofItems_eq]
      dsimp only [Node.follow]
      rw [pure_bind]
      dsimp only
      rw [hagain, List.map_id]
      rfl

/-- Every entry that is read comes from a member, or was there before. -/
theorem gives_readEntries {read : Node → Read α} {before d : Dictionary String α}
    {members : List (Node × Node)} (h : Gives (readEntries read before members) d) :
    ∀ entry ∈ d.entries, entry ∈ before.entries ∨ ∃ m ∈ members, Gives (read m.2) entry.2 := by
  induction members generalizing before with
  | nil =>
    unfold readEntries at h
    rw [gives_pure] at h
    subst h
    exact fun entry hentry => .inl hentry
  | cons m rest ih =>
    unfold readEntries at h
    obtain ⟨name, -, h⟩ := h.bind
    obtain ⟨x, hx, h⟩ := h.bind
    intro entry hentry
    rcases ih h entry hentry with hbefore | ⟨m', hm', hread⟩
    · rcases Dictionary.mem_put hbefore with rfl | hbefore
      · exact .inr ⟨m, List.mem_cons_self, hx⟩
      · exact .inl hbefore
    · exact .inr ⟨m', List.mem_cons_of_mem m hm', hread⟩

/-- A dictionary is read entry by entry. -/
theorem gives_dictionaryIn {value : Option (Node → Read α)} {d : Dictionary String α}
    (hn : n.IsPlain) (h : Gives (dictionaryIn value n) d) : ∃ read, value = some read ∧
      ∀ entry ∈ d.entries, ∃ m, m.IsPlain ∧ Gives (read m) entry.2 := by
  unfold dictionaryIn at h
  rw [follow_of_isPlain hn, pure_bind] at h
  cases hn with
  | scalar hs =>
    dsimp only at h
    rw [not_vacant hs] at h
    exact absurd h not_gives_throw
  | list => exact absurd h not_gives_throw
  | @table members brokenOff typed hkeys hvalues =>
    cases value with
    | none => exact absurd h not_gives_throw
    | some read =>
      obtain ⟨e, he, h⟩ := h.bind
      obtain ⟨_, -, h⟩ := h.bind
      rw [gives_pure] at h
      subst h
      refine ⟨read, rfl, fun entry hentry => ?_⟩
      obtain ⟨m, hm, hread⟩ := (gives_readEntries he entry hentry).resolve_left List.not_mem_nil
      exact ⟨m.2, hvalues m hm, hread⟩
  | broken => exact absurd h not_gives_throw

theorem readEntries_eq_pure {read : Node → Read α} {write : α → Value}
    {entries : List (String × α)} (h : ∀ entry ∈ entries,
      read (Node.ofValue (write entry.2)) = pure entry.2) (before : Dictionary String α) :
    readEntries read before
      (entries.map fun entry => (nameNode entry.1, Node.ofValue (write entry.2))) =
      pure (entries.foldl (fun d entry => d.insert entry.1 entry.2) before) := by
  induction entries generalizing before with
  | nil => rfl
  | cons entry rest ih =>
    obtain ⟨hentry, hrest⟩ := List.forall_mem_cons.1 h
    have hkey : (nameNode entry.1).keyText = pure entry.1 := rfl
    rw [List.map_cons, readEntries, hkey, pure_bind, hentry, pure_bind, ih hrest, List.foldl_cons]

/-- Dictionaries are recovered if their values are; a repeated key has come to rest on its last
value. -/
theorem recovers_dictionaryOf {value : Reader α} {write : α → Value}
    (hvalue : ∀ d < depth, Recovers (value d) write d) :
    Recovers (dictionaryOf value depth) (ofDictionary write) depth := by
  intro n d hn h
  obtain ⟨read, hread, hall⟩ := gives_dictionaryIn hn h
  cases depth with
  | zero => cases hread
  | succ depth =>
    obtain rfl := Option.some.inj hread
    have hrecovered : ∀ entry ∈ d.entries, Recovered (value depth) write depth entry.2 := by
      intro entry hentry
      obtain ⟨m, hm, hentry⟩ := hall entry hentry
      exact hvalue depth (Nat.lt_succ_self depth) m entry.2 hm hentry
    have hagain := readEntries_eq_pure (fun entry hentry => (hrecovered entry hentry).again) .empty
    have hsame : Dictionary.ofList d.entries = d :=
      Dictionary.ext_entries (Dictionary.entries_ofList d.ascending)
    constructor
    · refine .object fun m hm => ?_
      obtain ⟨entry, hentry, rfl⟩ := List.mem_map.1 hm
      exact (hrecovered entry hentry).fits
    · unfold dictionaryOf belowDepth dictionaryIn ofDictionary Node.ofValue
      rw [ofMembers_eq, List.map_map]
      dsimp only [Node.follow]
      rw [pure_bind]
      dsimp only
      change (do
        let d ← readEntries (value depth) .empty
          (d.entries.map fun (entry : String × α) =>
            (nameNode entry.1, Node.ofValue (write entry.2)))
        liftM (finished none)
        return d) = _
      rw [hagain, pure_bind]
      exact congrArg (pure : Dictionary String α → Read _) hsame

/-- The field of a record, as it is written, holds what it was written from: left out, it stands
for what the record has before it is read, and else it is read again. -/
structure Kept (read : Node → Read β) (name : String) (field : Field) (blank : β) (depth : Nat)
    (b : β) : Prop where
  absent : field = none → b = blank
  present : ∀ member, field = some member → member.1 = name ∧ member.2.FitsIn depth ∧
    read (Node.ofValue member.2) = pure b

theorem kept_blank {read : Node → Read β} {blank : β} : Kept read name none blank depth blank where
  absent _ := rfl
  present _ h := by cases h

/-- A field that is always written. -/
theorem kept_some {read : Node → Read β} {write : β → Value} {blank b : β}
    (h : Recovered read write depth b) :
    Kept read name (some (name, write b)) blank depth b where
  absent h := by cases h
  present member hmember := by
    obtain rfl := Option.some.inj hmember
    exact ⟨rfl, h.fits, h.again⟩

theorem optional_eq_pure {read : Node → Read α} {v : Value} {x : α} (hv : v ≠ .null)
    (h : read (Node.ofValue v) = pure x) : optional read (Node.ofValue v) = pure (some x) := by
  have hpresent : optional read (Node.ofValue v) = (do return some (← read (Node.ofValue v))) := by
    unfold optional
    rw [follow_ofValue, pure_bind]
    cases v with
    | null => exact absurd rfl hv
    | bool b => unfold Node.ofValue; rfl
    | number n => unfold Node.ofValue; rfl
    | string s => unfold Node.ofValue; rfl
    | array items => unfold Node.ofValue; rfl
    | object members => unfold Node.ofValue; rfl
  rw [hpresent, h, pure_bind]

/-- What is there in the place of something that may be absent is not nothing. -/
theorem gives_optional {read : Node → Read α} {b : Option α} (hn : n.IsPlain)
    (h : Gives (optional read n) b) : b = none ∨
      n ≠ .scalar (.ofAtom .null) ∧ ∃ x, b = some x ∧ Gives (read n) x := by
  have hread {n : Node} (h : Gives (do return some (← read n)) b) :
      ∃ x, b = some x ∧ Gives (read n) x := by
    obtain ⟨x, hx, h⟩ := h.bind
    rw [gives_pure] at h
    exact ⟨x, h.symm, hx⟩
  unfold optional at h
  rw [follow_of_isPlain hn, pure_bind] at h
  cases hn with
  | @scalar s hs =>
    obtain ⟨a, ha, h⟩ := Gives.bind h
    rw [gives_lift] at ha
    cases a with
    | true =>
      exact .inl (gives_pure.1 h).symm
    | false =>
      refine .inr ⟨?_, hread h⟩
      rintro ⟨⟩
      cases ha
  | list => exact .inr ⟨by rintro ⟨⟩, hread h⟩
  | table => exact .inr ⟨by rintro ⟨⟩, hread h⟩
  | broken => exact .inr ⟨by rintro ⟨⟩, hread h⟩

/-- A field that may be absent. -/
theorem kept_optional {read : Node → Read α} {write : α → Value} {b : Option α}
    (hread : Recovers read write depth) (hnull : KeepsNull read write) (hn : n.IsPlain)
    (h : Gives (optional read n) b) :
    Kept (optional read) name (valueField name (b.map write)) none depth b := by
  rcases gives_optional hn h with rfl | ⟨hne, x, rfl, hx⟩
  · exact kept_blank
  · have hrecovered := hread n x hn hx
    refine ⟨fun h => (by cases h), fun member hmember => ?_⟩
    obtain rfl := Option.some.inj hmember
    exact ⟨rfl, hrecovered.fits,
      optional_eq_pure (fun hv => hne (hnull n x hn hx hv)) hrecovered.again⟩

abbrev KeptOption (read : Reader α) (write : α → Value) (name : String) (depth : Nat)
    (b : Option α) : Prop :=
  Kept (optional (read depth)) name (valueField name (b.map write)) none depth b

theorem kept_option {read : Reader α} {write : α → Value} {b : Option α}
    (hread : Recovers (read depth) write depth) (hne : ∀ x, write x ≠ .null) (hn : n.IsPlain)
    (h : Gives (optional (read depth) n) b) : KeptOption read write name depth b :=
  kept_optional hread (fun _ x _ _ hx => absurd hx (hne x)) hn h

abbrev KeptValue (name : String) (depth : Nat) (b : Option Value) : Prop :=
  Kept (optional (readValue depth)) name (valueField name b) none depth b

theorem kept_value {b : Option Value} (hn : n.IsPlain)
    (h : Gives (optional (readValue depth) n) b) : KeptValue name depth b := by
  have hkept : Kept _ name _ none depth b :=
    kept_optional (recovers_toValue depth).1 (recovers_toValue depth).2 hn h
  rwa [Option.map_id, id] at hkept

abbrev KeptText (name : String) (depth : Nat) (b : Option String) : Prop :=
  Kept (optional (readText depth)) name (textField name b) none depth b

theorem kept_text {b : Option String} (hn : n.IsPlain)
    (h : Gives (optional (readText depth) n) b) : KeptText name depth b := by
  have hkept : KeptOption readText .string name depth b :=
    kept_option (recovers_readText depth) (fun s => by simp) hn h
  have hfield : valueField name (b.map .string) = textField name b := by
    cases b <;> rfl
  rwa [KeptOption, hfield] at hkept

abbrev KeptFlag (name : String) (depth : Nat) (b : Bool) : Prop :=
  Kept (readFlag depth) name (flagField name b) false depth b

theorem kept_flag {b : Bool} (h : Gives (readFlag depth n) b) : KeptFlag name depth b := by
  cases b with
  | false => exact kept_blank
  | true =>
    refine ⟨fun h => (by cases h), fun member hmember => ?_⟩
    obtain rfl := Option.some.inj hmember
    exact ⟨rfl, .bool, rfl⟩

/-- A field that is left out if it is empty. -/
theorem kept_unless {read : Node → Read β} {write : β → Value} {isEmpty : β → Bool} {blank b : β}
    (hread : Recovers read write depth) (hempty : ∀ b, isEmpty b = true → b = blank)
    (hn : n.IsPlain) (h : Gives (read n) b) :
    Kept read name (if isEmpty b then none else some (name, write b)) blank depth b := by
  cases hb : isEmpty b with
  | true =>
    obtain rfl := hempty b hb
    exact kept_blank
  | false => exact kept_some (hread n b hn h)

theorem kept_list {item : Reader α} {write : α → Value} {xs : List α}
    (hitem : ∀ d < depth, Recovers (item d) write d) (hn : n.IsPlain)
    (h : Gives (listOf item depth n) xs) :
    Kept (listOf item depth) name (if xs.isEmpty then none
      else some (name, .array (xs.map write))) [] depth xs :=
  kept_unless (recovers_listOf hitem) (fun _ hxs => List.isEmpty_iff.1 hxs) hn h

abbrev KeptTexts (name : String) (depth : Nat) (xs : List String) : Prop :=
  Kept (listOf readText depth) name (textsField name xs) [] depth xs

theorem kept_texts {xs : List String} (hn : n.IsPlain) (h : Gives (listOf readText depth n) xs) :
    KeptTexts name depth xs :=
  kept_list (fun d _ => recovers_readText d) hn h

abbrev KeptDictionary (read : Reader α) (write : α → Value) (name : String) (depth : Nat)
    (d : Dictionary String α) : Prop :=
  Kept (dictionaryOf read depth) name (dictionaryField name write d) .empty depth d

theorem kept_dictionary {read : Reader α} {write : α → Value} {d : Dictionary String α}
    (hread : ∀ d < depth, Recovers (read d) write d) (hn : n.IsPlain)
    (h : Gives (dictionaryOf read depth n) d) : KeptDictionary read write name depth d :=
  kept_unless (recovers_dictionaryOf hread)
    (fun _ hd => Dictionary.ext_entries (List.isEmpty_iff.1 hd)) hn h

end SchemaToJava.Reading
