import Mathlib.Data.List.Pairwise
import SchemaToJava.Proofs.ReorderedReading

/-!
Records that are read from objects whose members stand in another order. Each member either sets
one field or is no field; fields that are set apart can be set in any order, so the record that is
read does not depend on it. Two records that share an object are each read from the members that
are theirs.
-/
namespace SchemaToJava.Schema

open Reading Json Outcome

variable {α β σ : Type}

/-- The field is read from members of any order inside it, and `shown` leaves out of a record what
it leaves out of the value of the field. -/
def RespectsField (p : Place) (shown : α → α) (f : FieldReader α) : Prop :=
  ∃ shownValue : f.Value → f.Value, Respects (p.member f.name) shownValue f.read ∧
    ∀ x acc, shown (f.set x acc) = f.set (shownValue x) (shown acc)

/-- Neither field is touched when the other is set. -/
def SetsApart (f g : FieldReader α) : Prop :=
  ∀ x y acc, f.set x (g.set y acc) = g.set y (f.set x acc)

instance : Std.Symm (@SetsApart α) := ⟨fun _ _ h x y acc => (h y x acc).symm⟩

@[simp] theorem setsApart_mk {γ δ : Type} {name name' : String} {read : Node → Read γ}
    {read' : Node → Read δ} {set : γ → α → α} {set' : δ → α → α} :
    SetsApart ⟨name, read, set⟩ ⟨name', read', set'⟩ ↔
      ∀ x y acc, set x (set' y acc) = set' y (set x acc) := Iff.rfl

/-- What becomes of the members of an object does not depend on the order inside them, nor on their
own order, up to what `shown` leaves out of the record. -/
structure RespectsFields (p : Place) (shown : α → α) (fields : Fields α) : Prop where
  reads : ∀ f ∈ fields.readers, RespectsField p shown f
  apart : fields.readers.Pairwise SetsApart

/-- A member that is a field updates the record, any other leaves it as it is. -/
inductive Takes (fields : Fields α) : String × Node → String × (α → α) → Prop
  | field {name : String} {n : Node} {f : FieldReader α} {x : f.Value} :
      fields.reader? name = some f → f.read n = pure x → Takes fields (name, n) (name, f.set x)
  | other {name : String} {n : Node} : fields.reader? name = none →
      Takes fields (name, n) (name, id)

/-- What is done with members that are no fields. -/
def IsKeeper (p : Place) (keep : σ → String × Node → σ)
    (other : σ → Option String → Node → Read σ) : Prop :=
  ∀ ⦃rest rest' : σ⦄ ⦃name : String⦄ ⦃n n' : Node⦄, Reordered (p.member name) n n' →
    Gives (other rest (some name) n) rest' →
      rest' = keep rest (name, n) ∧ ∀ rest, other rest (some name) n' = pure (keep rest (name, n'))

def ownMembers (fields : Fields α) (members : List (String × Node)) : List (String × Node) :=
  members.filter fun m => (fields.reader? m.1).isSome

def otherMembers (fields : Fields α) (members : List (String × Node)) : List (String × Node) :=
  members.filter fun m => (fields.reader? m.1).isNone

section Fields

variable {p : Place} {shown : α → α}

theorem respectsField {γ : Type} {shownValue : γ → γ} {name : String} {read : Node → Read γ}
    {set : γ → α → α} (hread : Respects (p.member name) shownValue read)
    (hset : ∀ x acc, shown (set x acc) = set (shownValue x) (shown acc)) :
    RespectsField p shown ⟨name, read, set⟩ :=
  ⟨shownValue, hread, hset⟩

/-- A field is read again from the reordered tree, and either value does the same to what is shown
of records. -/
theorem RespectsField.exists_read {f : FieldReader α} (h : RespectsField p shown f) {n n' : Node}
    (hreordered : Reordered (p.member f.name) n n') {x : f.Value} (hgives : Gives (f.read n) x) :
    ∃ x', f.read n' = pure x' ∧
      ∀ acc acc', shown acc' = shown acc → shown (f.set x' acc') = shown (f.set x acc) := by
  obtain ⟨shownValue, hread, hset⟩ := h
  obtain ⟨x', hx', hshown⟩ := hread hreordered hgives
  refine ⟨x', hx', fun acc acc' hacc => ?_⟩
  rw [hset, hset, hshown, hacc]

end Fields

section Members

variable {p : Place} {shown : α → α} {fields : Fields α} {keep : σ → String × Node → σ}
  {other : σ → Option String → Node → Read σ} {members same members' : List (String × Node)}
  {acts : List (String × (α → α))}

theorem names_of_takes (h : List.Forall₂ (Takes fields) members acts) :
    acts.map Prod.fst = members.map Prod.fst := by
  induction h with
  | nil => rfl
  | cons hfirst _ ih =>
    rw [List.map_cons, List.map_cons, ih]
    cases hfirst <;> rfl

theorem ownMembers_cons (m : String × Node) (rest : List (String × Node)) :
    ownMembers fields (m :: rest) =
      if (fields.reader? m.1).isSome then m :: ownMembers fields rest
      else ownMembers fields rest := List.filter_cons

theorem otherMembers_cons (m : String × Node) (rest : List (String × Node)) :
    otherMembers fields (m :: rest) =
      if (fields.reader? m.1).isNone then m :: otherMembers fields rest
      else otherMembers fields rest := List.filter_cons

theorem readMembers_field {name : String} {n : Node} {f : FieldReader α}
    (hreader : fields.reader? name = some f) (places seen : List String) (acc : α) (rest : σ)
    (more : List (String × Node)) :
    fields.readMembers places other seen acc rest (namedMembers ((name, n) :: more)) =
      if seen.contains name then throw .mismatched
      else f.read n >>= fun x =>
        fields.readMembers places other (name :: seen) (f.set x acc) rest (namedMembers more) := by
  rw [namedMembers, List.map_cons, Fields.readMembers, fieldName_nameNode, pure_bind,
    Option.bind_some, hreader]
  obtain ⟨-, rfl⟩ := mem_of_reader? hreader
  rfl

theorem readMembers_other {name : String} {n : Node} (hreader : fields.reader? name = none)
    (places seen : List String) (acc : α) (rest : σ) (more : List (String × Node)) :
    fields.readMembers places other seen acc rest (namedMembers ((name, n) :: more)) =
      other rest (some name) n >>= fun rest =>
        fields.readMembers places other seen acc rest (namedMembers more) := by
  rw [namedMembers, List.map_cons, Fields.readMembers, fieldName_nameNode, pure_bind,
    Option.bind_some, hreader]
  rfl

/-- Members with distinct names are read one after another. -/
theorem readMembers_eq_pure (hacts : List.Forall₂ (Takes fields) members acts)
    (hother : ∀ m ∈ otherMembers fields members, ∀ rest,
      other rest (some m.1) m.2 = pure (keep rest m))
    (hnodup : (members.map Prod.fst).Nodup) (places : List String) {seen : List String}
    (hnew : ∀ m ∈ members, m.1 ∉ seen) (acc : α) (rest : σ) :
    fields.readMembers places other seen acc rest (namedMembers members) =
      pure (((ownMembers fields members).map Prod.fst).reverse ++ seen,
        acts.foldl (fun acc act => act.2 acc) acc,
        (otherMembers fields members).foldl keep rest) := by
  induction hacts generalizing seen acc rest with
  | nil => rfl
  | @cons m act more later hfirst _ ih =>
    rw [List.map_cons, List.nodup_cons] at hnodup
    obtain ⟨hm, hmore⟩ := List.forall_mem_cons.1 hnew
    cases hfirst with
    | @field name n f x hreader hread =>
      rw [otherMembers_cons, hreader] at hother
      have hunseen : seen.contains name = false := by
        rw [List.contains_eq_mem, decide_eq_false_iff_not]
        exact hm
      have hlater : ∀ m ∈ more, m.1 ∉ name :: seen := by
        intro m hmem hseen
        rcases List.mem_cons.1 hseen with heq | hseen
        · have hagain : name ∈ more.map Prod.fst := heq ▸ List.mem_map_of_mem hmem
          exact hnodup.1 hagain
        · exact hmore m hmem hseen
      have hrest := ih hother hnodup.2 hlater (f.set x acc) rest
      rw [readMembers_field hreader, hunseen, if_neg Bool.false_ne_true, hread, pure_bind, hrest,
        ownMembers_cons, otherMembers_cons, hreader]
      simp
    | @other name n hreader =>
      rw [otherMembers_cons, hreader] at hother
      obtain ⟨hkeep, hothers⟩ := List.forall_mem_cons.1 hother
      have hrest := ih hothers hnodup.2 hmore acc (keep rest (name, n))
      rw [readMembers_other hreader, hkeep rest, pure_bind, hrest, ownMembers_cons,
        otherMembers_cons, hreader]
      rfl

/-- What is read from members is what members of another order inside them are read as. -/
theorem exists_takes (h : RespectsFields p shown fields) (hother : IsKeeper p keep other)
    (halike : List.Forall₂ p.Alike members same) {places seen seen' : List String} {acc acc' x : α}
    {rest rest' : σ} (hacc : shown acc' = shown acc)
    (hgives : Gives (fields.readMembers places other seen acc rest (namedMembers members))
      (seen', x, rest')) :
    ∃ acts, List.Forall₂ (Takes fields) same acts ∧
      (∀ m ∈ otherMembers fields same, ∀ rest, other rest (some m.1) m.2 = pure (keep rest m)) ∧
      shown (acts.foldl (fun acc act => act.2 acc) acc') = shown x ∧
      rest' = (otherMembers fields members).foldl keep rest ∧
      seen' = ((ownMembers fields same).map Prod.fst).reverse ++ seen := by
  induction halike generalizing seen acc acc' rest with
  | nil =>
    have hgives : Gives (pure (seen, acc, rest)) (seen', x, rest') := hgives
    rw [gives_pure] at hgives
    obtain ⟨rfl, hpair⟩ := Prod.mk.inj hgives
    obtain ⟨rfl, rfl⟩ := Prod.mk.inj hpair
    exact ⟨[], .nil, fun _ hm => absurd hm List.not_mem_nil, hacc, rfl, rfl⟩
  | @cons m m' more more' hm _ ih =>
    obtain ⟨name, n⟩ := m
    obtain ⟨name', n'⟩ := m'
    obtain ⟨hname, hreordered⟩ := hm
    obtain rfl : name = name' := hname
    cases hreader : fields.reader? name with
    | none =>
      rw [readMembers_other hreader] at hgives
      -- no field, so the record stays as it is and only the rest grows
      obtain ⟨next, hnext, hgives⟩ := hgives.bind
      obtain ⟨rfl, hkeep⟩ := hother hreordered hnext
      obtain ⟨acts, hacts, hothers, hshown, hrest, hseen⟩ := ih hacc hgives
      refine ⟨(name, id) :: acts, .cons (.other hreader) hacts, ?_, hshown, ?_, ?_⟩
      · rw [otherMembers_cons, hreader]
        exact List.forall_mem_cons.2 ⟨hkeep, hothers⟩
      · rw [otherMembers_cons, hreader]
        exact hrest
      · rw [ownMembers_cons, hreader]
        exact hseen
    | some f =>
      rw [readMembers_field hreader] at hgives
      split at hgives
      · exact absurd hgives not_gives_throw
      obtain ⟨x, hx, hgives⟩ := hgives.bind
      obtain ⟨hf, rfl⟩ := mem_of_reader? hreader
      obtain ⟨x', hx', hset⟩ := (h.reads f hf).exists_read hreordered hx
      obtain ⟨acts, hacts, hothers, hshown, hrest, hseen⟩ := ih (hset acc acc' hacc) hgives
      refine ⟨(f.name, f.set x') :: acts, .cons (.field hreader hx') hacts, ?_, hshown, ?_, ?_⟩
      · rw [otherMembers_cons, hreader]
        exact hothers
      · rw [otherMembers_cons, hreader]
        exact hrest
      · rw [ownMembers_cons, hreader, hseen]
        simp

theorem RespectsFields.setsApart (h : RespectsFields p shown fields) {name name' : String}
    {f g : FieldReader α} (hf : fields.reader? name = some f) (hg : fields.reader? name' = some g)
    (hne : name ≠ name') : SetsApart f g := by
  obtain ⟨hmem, rfl⟩ := mem_of_reader? hf
  obtain ⟨hmem', rfl⟩ := mem_of_reader? hg
  exact h.apart.forall hmem hmem' fun heq => hne (congrArg FieldReader.name heq)

/-- Updates of different fields can be made in any order. -/
theorem foldl_eq_of_perm (h : RespectsFields p shown fields)
    (hacts : List.Forall₂ (Takes fields) members acts) (hnodup : (members.map Prod.fst).Nodup)
    {acts' : List (String × (α → α))} (hperm : acts.Perm acts') (acc : α) :
    acts.foldl (fun acc act => act.2 acc) acc = acts'.foldl (fun acc act => act.2 acc) acc := by
  have hnames : (acts.map Prod.fst).Nodup := by
    rw [names_of_takes hacts]
    exact hnodup
  refine hperm.foldl_eq' (fun act hact act' hact' acc => ?_) acc
  -- no name stands twice, so updates of one name are the same update
  by_cases hname : act.1 = act'.1
  · rw [List.inj_on_of_nodup_map hnames hact hact' hname]
  obtain ⟨m, -, hm⟩ := exists_left_of_mem hacts hact
  obtain ⟨m', -, hm'⟩ := exists_left_of_mem hacts hact'
  cases hm with
  | other => rfl
  | field hreader =>
    cases hm' with
    | other => rfl
    | field hreader' => exact h.setsApart hreader' hreader (Ne.symm hname) _ _ acc

/-- What is read from members is read from them in any order. -/
theorem exists_readMembers (h : RespectsFields p shown fields) (hother : IsKeeper p keep other)
    (halike : List.Forall₂ p.Alike members same) (hnodup : (same.map Prod.fst).Nodup)
    (hperm : same.Perm members') {places seen : List String} {x : α} {rest rest' : σ}
    (hgives : Gives (fields.readMembers places other [] fields.blank rest (namedMembers members))
      (seen, x, rest')) :
    rest' = (otherMembers fields members).foldl keep rest ∧
      ∃ seen' x', fields.readMembers places other [] fields.blank rest (namedMembers members') =
        pure (seen', x', (otherMembers fields members').foldl keep rest) ∧
          shown x' = shown x ∧ ∀ name, name ∈ seen' ↔ name ∈ seen := by
  obtain ⟨acts, hacts, hothers, hshown, hrest, hseen⟩ :=
    exists_takes h hother halike rfl hgives
  obtain ⟨acts', hacts', hsame⟩ := List.perm_comp_forall₂ hperm.symm hacts
  have hothers' : ∀ m ∈ otherMembers fields members', ∀ rest,
      other rest (some m.1) m.2 = pure (keep rest m) := by
    intro m hm
    exact hothers m ((hperm.filter _).mem_iff.2 hm)
  have hnodup' : (members'.map Prod.fst).Nodup := (hperm.map _).nodup_iff.1 hnodup
  have hread := readMembers_eq_pure hacts' hothers' hnodup' places
    (fun _ _ => List.not_mem_nil) fields.blank rest
  refine ⟨hrest, _, _, hread, ?_, fun name => ?_⟩
  · rw [← foldl_eq_of_perm h hacts hnodup hsame.symm, hshown]
  · rw [hseen]
    have hown : (ownMembers fields same).Perm (ownMembers fields members') := hperm.filter _
    simp only [List.append_nil, List.mem_reverse]
    exact ((hown.map Prod.fst).mem_iff).symm

end Members

section Objects

variable {p : Place} {shown : α → α} {fields : Fields α}
  {members same members' : List (String × Node)}

theorem isKeeper_skipMember (p : Place) : IsKeeper p (fun u _ => u) Fields.skipMember := by
  intro rest rest' name n n' h hgives
  have hgives : Gives (liftM n.skim : Read Unit) rest' := hgives
  have hskim : n'.skim = .ok () := h.skim (gives_lift.1 hgives)
  refine ⟨rfl, fun rest => ?_⟩
  change (liftM n'.skim : Read Unit) = _
  rw [hskim]
  rfl

theorem isKeeper_keepMember {γ δ : Type} (p : Place) (m : Merged γ δ) :
    IsKeeper p (fun kept member => (nameNode member.1, member.2) :: kept) m.keepMember := by
  intro rest rest' name n n' h hgives
  unfold Merged.keepMember at hgives
  obtain ⟨kept, hkept, hrest⟩ := hgives.bind
  obtain ⟨rfl, hsettled⟩ := h.settle m.depth kept hkept
  refine ⟨(gives_pure.1 hrest).symm, fun rest => ?_⟩
  change (n'.settle m.depth >>= fun _ => _) = _
  rw [hsettled, pure_bind]
  rfl

/-- A record that is read from an object is read from it in any order. -/
theorem readsAlike_readObject (h : RespectsFields p shown fields)
    (halike : List.Forall₂ p.Alike members same) (hnodup : (same.map Prod.fst).Nodup)
    (hperm : same.Perm members') : ReadsAlike shown (fields.readObject (namedMembers members) none)
      (fields.readObject (namedMembers members') none) := by
  intro x hgives
  unfold Fields.readObject at hgives ⊢
  obtain ⟨⟨seen, acc, u⟩, hread, hgives⟩ := hgives.bind
  obtain ⟨_, -, hgives⟩ := Gives.bind hgives
  obtain ⟨_, hall, hgives⟩ := hgives.bind
  obtain rfl := gives_pure.1 hgives
  obtain ⟨-, seen', x', hread', hshown, hseen⟩ :=
    exists_readMembers h (isKeeper_skipMember p) halike hnodup hperm hread
  have hmissing : (fun name => !seen'.contains name) = fun name => !seen.contains name := by
    funext name
    rw [List.contains_eq_mem, List.contains_eq_mem, decide_eq_decide.2 (hseen name)]
  refine ⟨x', ?_, hshown⟩
  rw [hread', pure_bind]
  dsimp only
  rw [hmissing, gives_lift.1 hall]
  rfl

/-- A record that is read from an array is read from it with the items in another order inside. -/
theorem readsAlike_readArray (h : RespectsFields p shown fields) {left : List (FieldReader α)}
    (hleft : ∀ f ∈ left, f ∈ fields.readers) {items items' : List Node}
    (hlength : items.length = items'.length)
    (hitems : ∀ (i : Nat) (f : FieldReader α) (n n' : Node), left[i]? = some f →
      items[i]? = some n → items'[i]? = some n' → Reordered (p.member f.name) n n')
    {acc acc' : α} (hacc : shown acc' = shown acc) :
    ReadsAlike shown (fields.readArray acc none left items)
      (fields.readArray acc' none left items') := by
  intro x hgives
  induction left generalizing items items' acc acc' with
  | nil =>
    cases items with
    | cons => exact absurd hgives not_gives_throw
    | nil =>
      obtain rfl := List.length_eq_zero_iff.1 hlength.symm
      obtain ⟨_, -, hgives⟩ := Gives.bind hgives
      obtain rfl := gives_pure.1 hgives
      exact ⟨acc', rfl, hacc⟩
  | cons f left ih =>
    cases items with
    | nil =>
      obtain rfl := List.length_eq_zero_iff.1 hlength.symm
      unfold Fields.readArray at hgives ⊢
      obtain ⟨_, -, hgives⟩ := hgives.bind
      obtain ⟨_, hall, hgives⟩ := hgives.bind
      obtain rfl := gives_pure.1 hgives
      refine ⟨acc', ?_, hacc⟩
      rw [gives_lift.1 hall]
      rfl
    | cons n items =>
      cases items' with
      | nil => cases hlength
      | cons n' items' =>
        obtain ⟨hf, hleft⟩ := List.forall_mem_cons.1 hleft
        have hn : Reordered (p.member f.name) n n' := hitems 0 f n n' rfl rfl rfl
        have hrest (i : Nat) (g : FieldReader α) (n n' : Node) (hg : left[i]? = some g)
            (hn : items[i]? = some n) (hn' : items'[i]? = some n') :
            Reordered (p.member g.name) n n' := hitems (i + 1) g n n' hg hn hn'
        unfold Fields.readArray at hgives ⊢
        obtain ⟨b, hb, hgives⟩ := hgives.bind
        obtain ⟨b', hb', hset⟩ := (h.reads f hf).exists_read hn hb
        obtain ⟨x', hx', hshown⟩ :=
          ih hleft (Nat.succ.inj hlength) hrest (hset acc acc' hacc) hgives
        refine ⟨x', ?_, hshown⟩
        rw [hb', pure_bind, hx']

/-- A record is read in any order, from an object or from an array. -/
theorem respects_recordOf {fields : Nat → Fields α} {depth : Nat}
    (h : ∀ d < depth, RespectsFields p shown (fields d))
    (hitem : ∀ d < depth, ∀ (i : Nat) (name : String), (fields d).names[i]? = some name →
      p.item i = p.member name) :
    Respects p shown (recordOf fields depth) := by
  intro n n' hreordered x hgives
  cases depth with
  | zero => cases hreordered <;> exact absurd hgives not_gives_throw
  | succ depth =>
    have hfields := h depth (Nat.lt_succ_self depth)
    cases hreordered with
    | @scalar _ s hs =>
      change Gives (if s.vacant then (fields depth).readObject [] none else throw s.refusal) x
        at hgives
      -- only in YAML does a scalar stand for an empty record
      rw [not_vacant hs] at hgives
      exact absurd hgives not_gives_throw
    | list hlength hitems =>
      refine readsAlike_readArray hfields (fun _ hf => hf) hlength (fun i f n n' hf hn hn' => ?_)
        rfl hgives
      have hname : (fields depth).names[i]? = some f.name := by
        rw [Fields.names, List.getElem?_map, hf]
        rfl
      rw [← hitem depth (Nat.lt_succ_self depth) i f.name hname]
      exact hitems i n n' hn hn'
    | table hnodup hnames hmembers hperm hvalue =>
      exact readsAlike_readObject hfields (Place.alike_of_members hnames hmembers)
        (hnames ▸ hnodup) hperm hgives

end Objects

section Merging

variable {p : Place} {shown : α → α} {shownShared : β → β}

/-- The members that are no fields keep the order inside them and their own. -/
theorem alike_otherMembers {fields : Fields α} {members same : List (String × Node)}
    (halike : List.Forall₂ p.Alike members same) :
    List.Forall₂ p.Alike (otherMembers fields members) (otherMembers fields same) := by
  induction halike with
  | nil => exact .nil
  | cons hm _ ih =>
    rw [otherMembers_cons, otherMembers_cons, hm.name]
    split
    · exact .cons hm ih
    · exact ih

theorem foldl_keep (members : List (String × Node)) (kept : List (Node × Node)) :
    (members.foldl (fun kept m => (nameNode m.1, m.2) :: kept) kept).reverse =
      kept.reverse ++ namedMembers members := by
  induction members generalizing kept with
  | nil => rw [List.foldl_nil, namedMembers, List.map_nil, List.append_nil]
  | cons m rest ih =>
    rw [List.foldl_cons, ih, List.reverse_cons, List.append_assoc]
    rfl

/-- Two records are read from one object in any order of its members. -/
theorem readsAlike_readBoth {m : Merged α β} (hown : RespectsFields p shown m.own)
    (hshared : RespectsFields p shownShared m.shared) {members same members' : List (String × Node)}
    (halike : List.Forall₂ p.Alike members same) (hnodup : (same.map Prod.fst).Nodup)
    (hperm : same.Perm members') : ReadsAlike (Prod.map shown shownShared)
      (m.readObject (namedMembers members) none) (m.readObject (namedMembers members') none) := by
  intro x hgives
  unfold Merged.readObject at hgives ⊢
  obtain ⟨⟨seen, own, kept⟩, hread, hgives⟩ := hgives.bind
  obtain ⟨_, -, hgives⟩ := Gives.bind hgives
  obtain ⟨rfl, seen', own', hread', hshown, -⟩ :=
    exists_readMembers hown (isKeeper_keepMember p m) halike hnodup hperm hread
  rw [foldl_keep, List.reverse_nil, List.nil_append] at hgives
  cases hresult : (m.shared.readObject (namedMembers (otherMembers m.own members)) none).result with
  | error f =>
    rw [hresult] at hgives
    exact absurd hgives not_gives_throw
  | ok found =>
    rw [hresult] at hgives
    obtain rfl := gives_pure.1 hgives
    -- the shared record is read from the other members, which have an order of their own
    have hkept : ((otherMembers m.own same).map Prod.fst).Nodup :=
      hnodup.sublist (List.filter_sublist.map Prod.fst)
    obtain ⟨found', hfound', hshownShared⟩ := readsAlike_readObject hshared
      (alike_otherMembers halike) hkept (hperm.filter _) (gives_of_result hresult)
    have hresult' : (m.shared.readObject
        (namedMembers (otherMembers m.own members')) none).result = .ok found' :=
      congrArg Read.result hfound'
    refine ⟨(own', found'), ?_, Prod.ext hshown hshownShared⟩
    rw [hread', pure_bind]
    dsimp only
    rw [foldl_keep, List.reverse_nil, List.nil_append, hresult']
    rfl

/-- Two records that share an object are read from it in any order. -/
theorem respects_mergedOf {m : Nat → Merged α β} {depth : Nat}
    (hown : ∀ d < depth, RespectsFields p shown (m d).own)
    (hshared : ∀ d < depth, RespectsFields p shownShared (m d).shared) :
    Respects p (Prod.map shown shownShared) (mergedOf m depth) := by
  intro n n' hreordered x hgives
  cases depth with
  | zero => cases hreordered <;> exact absurd hgives not_gives_throw
  | succ depth =>
    have hlt : depth < depth + 1 := Nat.lt_succ_self depth
    cases hreordered with
    | @scalar _ s hs =>
      change Gives (if s.vacant then (m depth).readObject [] none else throw s.refusal) x
        at hgives
      rw [not_vacant hs] at hgives
      exact absurd hgives not_gives_throw
    | list => exact absurd hgives not_gives_throw
    | table hnodup hnames hmembers hperm hvalue =>
      exact readsAlike_readBoth (hown depth hlt) (hshared depth hlt)
        (Place.alike_of_members hnames hmembers) (hnames ▸ hnodup) hperm hgives

end Merging

end SchemaToJava.Schema
