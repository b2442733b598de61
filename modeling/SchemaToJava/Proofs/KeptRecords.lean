import SchemaToJava.Proofs.KeptFields

/-!
Records that are written and read again. The fields of a record are written one after another;
reading them in this order builds the record up from its blank, whether it stands in an object of
its own or shares one with the fields of another record.
-/
namespace SchemaToJava.Reading

open Json Outcome Schema

variable {α β : Type} {n : Node} {depth : Nat}

/-- The written fields make `x` of `acc`. The names in `used` are those of earlier fields. -/
inductive Builds (fields : Fields α) (depth : Nat) : List String → α → List Field → α → Prop
  | done {used : List String} {acc : α} : Builds fields depth used acc [] acc
  | field {used : List String} {acc x : α} {name : String} {field : Field} {rest : List Field}
      {γ : Type} {read : Node → Read γ} {set : γ → α → α} {blank b : γ}
      (hkept : Kept read name field blank depth b)
      (hreader : fields.reader? name = some ⟨name, read, set⟩)
      (hrest : Builds fields depth (name :: used) (set b acc) rest x)
      (hblank : set blank acc = acc := by rfl) (hnew : name ∉ used := by decide) :
      Builds fields depth used acc (field :: rest) x

/-- How a record is read and how it is written fit together. -/
structure Mirrors (fields : Fields α) (IsKept : α → Prop) (written : α → List Field)
    (depth : Nat) : Prop where
  blank : IsKept fields.blank
  keeps : ∀ f ∈ fields.readers, ∀ n x acc, n.IsPlain → Gives (f.read n) x → IsKept acc →
    IsKept (f.set x acc)
  builds : ∀ x, IsKept x → Builds fields depth [] fields.blank (written x) x
  required : ∀ x, ∀ name ∈ fields.required, ∃ v, some (name, v) ∈ written x

theorem fieldName_nameNode (places : List String) (name : String) :
    fieldName places (nameNode name) = pure (some name) := rfl

theorem mem_of_reader? {fields : Fields α} {name : String} {f : FieldReader α}
    (h : fields.reader? name = some f) : f ∈ fields.readers ∧ f.name = name := by
  unfold Fields.reader? at h
  exact ⟨List.mem_of_find?_eq_some h, by simpa using List.find?_some h⟩

theorem reader?_eq_none_iff {fields : Fields α} {name : String} :
    fields.reader? name = none ↔ name ∉ fields.names := by
  simp [Fields.reader?, Fields.names]

section Sources

variable {fields : Fields α} {IsKept : α → Prop} {written : α → List Field}

/-- Reading members keeps what is kept, member by member. -/
theorem gives_readMembers {σ : Type} {IsFine : σ → Prop} {places : List String}
    {other : σ → Option String → Node → Read σ} (h : Mirrors fields IsKept written depth)
    (hother : ∀ rest name n rest', n.IsPlain → IsFine rest → Gives (other rest name n) rest' →
      IsFine rest') {members : List (Node × Node)} (hplain : ∀ m ∈ members, m.2.IsPlain)
    {seen seen' : List String} {acc x : α} {rest rest' : σ} (hacc : IsKept acc)
    (hrest : IsFine rest)
    (hgives : Gives (fields.readMembers places other seen acc rest members) (seen', x, rest')) :
    IsKept x ∧ IsFine rest' := by
  induction members generalizing seen acc rest with
  | nil =>
    unfold Fields.readMembers at hgives
    rw [gives_pure] at hgives
    obtain ⟨-, hpair⟩ := Prod.mk.inj hgives
    obtain ⟨rfl, rfl⟩ := Prod.mk.inj hpair
    exact ⟨hacc, hrest⟩
  | cons m more ih =>
    obtain ⟨hm, hmore⟩ := List.forall_mem_cons.1 hplain
    unfold Fields.readMembers at hgives
    obtain ⟨name, -, hgives⟩ := hgives.bind
    cases hreader : name.bind fields.reader? with
    | none =>
      rw [hreader] at hgives
      obtain ⟨rest'', hrest'', hgives⟩ := Gives.bind hgives
      exact ih hmore hacc (hother rest name m.2 rest'' hm hrest hrest'') hgives
    | some f =>
      obtain ⟨own, -, hown⟩ := Option.bind_eq_some_iff.1 hreader
      rw [hreader] at hgives
      dsimp only at hgives
      split at hgives
      · exact absurd hgives not_gives_throw
      · obtain ⟨b, hb, hgives⟩ := hgives.bind
        exact ih hmore (h.keeps f (mem_of_reader? hown).1 _ _ _ hm hb hacc) hrest hgives

theorem gives_readObject (h : Mirrors fields IsKept written depth) {members : List (Node × Node)}
    {brokenOff : Option Fault} (hplain : ∀ m ∈ members, m.2.IsPlain) {x : α}
    (hgives : Gives (fields.readObject members brokenOff) x) : IsKept x := by
  unfold Fields.readObject at hgives
  obtain ⟨⟨seen, acc, u⟩, hread, hgives⟩ := hgives.bind
  obtain ⟨_, -, hgives⟩ := Gives.bind hgives
  obtain ⟨_, -, hgives⟩ := hgives.bind
  rw [gives_pure] at hgives
  subst hgives
  have hall : ∀ rest name n rest', n.IsPlain → True →
      Gives (Fields.skipMember rest name n) rest' → True := fun _ _ _ _ _ _ _ => trivial
  exact (gives_readMembers h hall hplain h.blank trivial hread).1

/-- A record that is read from an array keeps what is asked of its fields. -/
theorem gives_readArray (h : Mirrors fields IsKept written depth) {brokenOff : Option Fault}
    {left : List (FieldReader α)} (hleft : ∀ f ∈ left, f ∈ fields.readers) {items : List Node}
    (hplain : ∀ m ∈ items, m.IsPlain) {acc x : α} (hacc : IsKept acc)
    (hgives : Gives (fields.readArray acc brokenOff left items) x) : IsKept x := by
  induction left generalizing items acc with
  | nil =>
    cases items with
    | nil =>
      unfold Fields.readArray at hgives
      obtain ⟨_, -, hgives⟩ := hgives.bind
      exact gives_pure.1 hgives ▸ hacc
    | cons m items => exact absurd hgives not_gives_throw
  | cons f left ih =>
    cases items with
    | nil =>
      unfold Fields.readArray at hgives
      obtain ⟨_, -, hgives⟩ := hgives.bind
      obtain ⟨_, -, hgives⟩ := hgives.bind
      exact gives_pure.1 hgives ▸ hacc
    | cons m items =>
      obtain ⟨hf, hleft⟩ := List.forall_mem_cons.1 hleft
      obtain ⟨hm, hitems⟩ := List.forall_mem_cons.1 hplain
      unfold Fields.readArray at hgives
      obtain ⟨b, hb, hgives⟩ := hgives.bind
      exact ih hleft hitems (h.keeps f hf _ _ _ hm hb hacc) hgives

/-- A record that is read from a plain tree keeps what it was read from. -/
theorem gives_recordIn {fields? : Option (Fields α)}
    (h : ∀ fields ∈ fields?, Mirrors fields IsKept written depth) (hn : n.IsPlain) {x : α}
    (hgives : Gives (recordIn fields? n) x) : (∃ fields, fields? = some fields) ∧ IsKept x := by
  unfold recordIn at hgives
  rw [follow_of_isPlain hn, pure_bind] at hgives
  cases hn with
  | scalar hs =>
    cases fields? with
    | none => exact absurd hgives not_gives_throw
    | some fields =>
      dsimp only at hgives
      rw [not_vacant hs] at hgives
      exact absurd hgives not_gives_throw
  | @list items brokenOff typed positional hitems =>
    cases positional with
    | false => cases fields? <;> exact absurd hgives not_gives_throw
    | true =>
      cases fields? with
      | none => exact absurd hgives not_gives_throw
      | some fields =>
        have hmirrors := h fields rfl
        exact ⟨⟨fields, rfl⟩, gives_readArray hmirrors (fun _ hf => hf) hitems
          hmirrors.blank hgives⟩
  | @table members brokenOff typed hkeys hvalues =>
    cases fields? with
    | none => exact absurd hgives not_gives_throw
    | some fields => exact ⟨⟨fields, rfl⟩, gives_readObject (h fields rfl) hvalues hgives⟩
  | broken => cases fields? <;> exact absurd hgives not_gives_throw

end Sources

section Targets

variable {fields : Fields α} {IsKept : α → Prop} {written : α → List Field}

def memberNodes (written : List Field) : List (Node × Node) :=
  (membersOf written).map fun m => (nameNode m.1, Node.ofValue m.2)

theorem memberNodes_some (name : String) (v : Value) (rest : List Field) :
    memberNodes (some (name, v) :: rest) =
      (nameNode name, Node.ofValue v) :: memberNodes rest := rfl

/-- The written members fit into the depth from which they were read. -/
theorem Builds.fits {used : List String} {acc x : α} {written : List Field}
    (h : Builds fields depth used acc written x) : ∀ m ∈ membersOf written, m.2.FitsIn depth := by
  induction h with
  | done => exact fun m hm => by cases hm
  | @field used acc x name field rest γ read set blank b hkept hreader hrest hblank hnew ih =>
    cases field with
    | none => exact ih
    | some member =>
      intro m hm
      rcases List.mem_cons.1 hm with rfl | hm
      · exact (hkept.present m rfl).2.1
      · exact ih m hm

/-- The written fields are read back one after another; a field that was left out is as in the
blank. -/
theorem Builds.readsAfter {σ : Type} {used : List String} {acc x : α} {written : List Field}
    (h : Builds fields depth used acc written x) (places : List String)
    (other : σ → Option String → Node → Read σ) {seen : List String}
    (hseen : ∀ name ∈ seen, name ∈ used) (rest : σ) :
    ∃ seen', (∀ name ∈ seen, name ∈ seen') ∧ (∀ name v, some (name, v) ∈ written → name ∈ seen') ∧
      fields.readMembers places other seen acc rest (memberNodes written) =
        pure (seen', x, rest) := by
  induction h generalizing seen with
  | done => exact ⟨seen, fun _ h => h, fun _ _ h => (by cases h), rfl⟩
  | @field used acc x name field more γ read set blank b hkept hreader hmore hblank hnew ih =>
    cases field with
    | none =>
      obtain ⟨seen', hsub, hwritten, hread⟩ := ih fun name hname => .tail _ (hseen name hname)
      obtain rfl := hkept.absent rfl
      refine ⟨seen', hsub, fun name v h => ?_, hblank ▸ hread⟩
      exact hwritten name v ((List.mem_cons.1 h).resolve_left (by rintro ⟨⟩))
    | some member =>
      obtain ⟨rfl, -, hagain⟩ := hkept.present member rfl
      have hnext : ∀ other ∈ member.1 :: seen, other ∈ member.1 :: used := by
        intro other hother
        rcases List.mem_cons.1 hother with rfl | hother
        · exact List.mem_cons_self
        · exact .tail _ (hseen other hother)
      obtain ⟨seen', hsub, hwritten, hread⟩ := ih hnext
      have hunseen : seen.contains member.1 = false := by
        rw [List.contains_eq_mem, decide_eq_false_iff_not]
        exact fun h => hnew (hseen _ h)
      refine ⟨seen', fun name h => hsub name (.tail _ h), fun name v h => ?_, ?_⟩
      · rcases List.mem_cons.1 h with h | h
        · exact hsub name (by rw [← Option.some.inj h]; exact List.mem_cons_self)
        · exact hwritten name v h
      · rw [memberNodes_some, Fields.readMembers, fieldName_nameNode, pure_bind, Option.bind_some,
          hreader]
        dsimp only
        rw [hunseen, if_neg Bool.false_ne_true, hagain, pure_bind, hread]

/-- Fields that have been written are read as what they were written from. -/
theorem Builds.reads {σ : Type} {acc x : α} {written : List Field}
    (h : Builds fields depth [] acc written x) (places : List String)
    (other : σ → Option String → Node → Read σ) (rest : σ) :
    ∃ seen, (∀ name v, some (name, v) ∈ written → name ∈ seen) ∧
      fields.readMembers places other [] acc rest (memberNodes written) =
        pure (seen, x, rest) := by
  have hnone : ∀ name ∈ ([] : List String), name ∈ ([] : List String) := fun _ h => h
  obtain ⟨seen, -, hwritten, hread⟩ := h.readsAfter places other hnone rest
  exact ⟨seen, hwritten, hread⟩

theorem requireAll_eq_ok {missing : String → Bool}
    (h : ∀ name ∈ fields.required, missing name = false) : fields.requireAll missing = .ok () :=
  if_neg fun hany => by
    obtain ⟨name, hname, hmissing⟩ := List.any_eq_true.1 hany
    rw [h name hname] at hmissing
    cases hmissing

theorem readObject_memberNodes (h : Mirrors fields IsKept written depth) {x : α} (hx : IsKept x) :
    fields.readObject (memberNodes (written x)) none = pure x := by
  obtain ⟨seen, hwritten, hread⟩ := (h.builds x hx).reads fields.names Fields.skipMember ()
  have hall : fields.requireAll (fun name => !seen.contains name) = .ok () := by
    refine requireAll_eq_ok fun name hname => ?_
    obtain ⟨v, hv⟩ := h.required x name hname
    have hseen : name ∈ seen := hwritten name v hv
    rw [List.contains_eq_mem, decide_eq_true hseen]
    rfl
  unfold Fields.readObject
  rw [hread, pure_bind]
  dsimp only
  rw [hall]
  rfl

theorem ofValue_object (written : List Field) :
    Node.ofValue (.object (membersOf written)) = .table (memberNodes written) none := by
  unfold Node.ofValue
  rw [ofMembers_eq]
  rfl

/-- A record that has been read is read again from the object of its fields. -/
theorem recovers_recordOf {fields : Nat → Fields α} {IsKept : Nat → α → Prop}
    (h : ∀ d < depth, Mirrors (fields d) (IsKept d) written d) :
    Recovers (recordOf fields depth) (fun x => .object (membersOf (written x))) depth := by
  intro n x hn hx
  cases depth with
  | zero =>
    have hnone : ∀ f ∈ belowDepth fields 0, Mirrors f (IsKept 0) written 0 := by rintro _ ⟨⟩
    obtain ⟨f, hf⟩ := (gives_recordIn hnone hn hx).1
    cases hf
  | succ depth =>
    have hmirrors := h depth (Nat.lt_succ_self depth)
    have hsome : ∀ f ∈ belowDepth fields (depth + 1), Mirrors f (IsKept depth) written depth := by
      rintro _ ⟨⟩
      exact hmirrors
    have hkept : IsKept depth x := (gives_recordIn hsome hn hx).2
    refine ⟨.object (hmirrors.builds x hkept).fits, ?_⟩
    rw [ofValue_object]
    exact (pure_bind ..).trans (readObject_memberNodes hmirrors hkept)

end Targets

end SchemaToJava.Reading
