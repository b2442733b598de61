import SchemaToJava.Proofs.Outcomes
import SchemaToJava.Proofs.WrittenTrees

/-!
Values read from trees and written again. A value that has been read has each name in an object but
once, nests no deeper than it was allowed to, and is what its own tree is read as; a tree that has
been settled is the tree of values, and settling it again changes nothing.
-/
namespace SchemaToJava.Reading

open Json Outcome

variable {α β : Type} {n : Node} {depth : Nat}

/-- The step of reading can end with the result. -/
def Gives (r : Read α) (x : α) : Prop := ∃ before after, r.run before = .ok (x, after)

theorem gives_pure {x y : α} : Gives (pure x) y ↔ x = y := by
  constructor
  · rintro ⟨before, after, h⟩
    exact (Prod.mk.inj (Except.ok.inj h)).1
  · rintro rfl
    exact ⟨{}, {}, rfl⟩

theorem not_gives_throw {f : Fault} {x : α} : ¬ Gives (throw f) x := by
  rintro ⟨before, after, h⟩
  cases h

theorem gives_lift {e : Except Fault α} {x : α} : Gives (liftM e) x ↔ e = .ok x := by
  cases e with
  | error f =>
    constructor
    · rintro ⟨before, after, h⟩
      cases h
    · intro h
      cases h
  | ok y => exact gives_pure.trans ⟨fun h => h ▸ rfl, fun h => Except.ok.inj h⟩

theorem gives_of_result {r : Read α} {x : α} (h : r.result = .ok x) : Gives r x := by
  cases hr : r.run {} with
  | error f =>
    have hfault : r.result = .error f := congrArg (Except.map Prod.fst) hr
    rw [hfault] at h
    cases h
  | ok found =>
    have hfound : r.result = .ok found.1 := congrArg (Except.map Prod.fst) hr
    obtain rfl := Except.ok.inj (hfound.symm.trans h)
    exact ⟨{}, found.2, hr⟩

/-- A step of reading that ends with a result passes through one of its first part. -/
theorem Gives.bind {r : Read α} {k : α → Read β} {y : β} (h : Gives (r >>= k) y) :
    ∃ x, Gives r x ∧ Gives (k x) y := by
  obtain ⟨before, after, h⟩ := h
  rw [StateT.run_bind] at h
  cases hr : r.run before with
  | error f =>
    rw [hr] at h
    cases h
  | ok result =>
    rw [hr] at h
    exact ⟨result.1, ⟨before, result.2, hr⟩, result.2, after, h⟩

theorem Gives.mapM {f : α → Read β} {xs : List α} {ys : List β} (h : Gives (xs.mapM f) ys) :
    List.Forall₂ (fun x y => Gives (f x) y) xs ys := by
  induction xs generalizing ys with
  | nil =>
    rw [List.mapM_nil, gives_pure] at h
    subst h
    exact .nil
  | cons x xs ih =>
    rw [List.mapM_cons] at h
    obtain ⟨y, hy, h⟩ := h.bind
    obtain ⟨zs, hzs, h⟩ := h.bind
    rw [gives_pure] at h
    subst h
    exact .cons hy (ih hzs)

theorem mapM_eq_pure {γ : Type} {f : α → Read β} {g : γ → α} {k : γ → β} {zs : List γ}
    (h : ∀ z ∈ zs, f (g z) = pure (k z)) : (zs.map g).mapM f = pure (zs.map k) := by
  induction zs with
  | nil => rfl
  | cons z zs ih =>
    obtain ⟨hz, hzs⟩ := List.forall_mem_cons.1 h
    rw [List.map_cons, List.mapM_cons, hz, pure_bind, ih hzs, pure_bind, List.map_cons]

theorem follow_of_isPlain (h : n.IsPlain) : n.follow = pure n := by
  cases h <;> rfl

theorem follow_ofValue (v : Value) : (Node.ofValue v).follow = pure (Node.ofValue v) := by
  cases v <;> (unfold Node.ofValue; rfl)

theorem ofItems_eq (items : List Value) : Node.ofItems items = items.map Node.ofValue := by
  induction items with
  | nil => rw [Node.ofItems, List.map_nil]
  | cons x rest ih => rw [Node.ofItems, ih, List.map_cons]

theorem ofMembers_eq (members : List (String × Value)) :
    Node.ofMembers members = members.map fun m => (nameNode m.1, Node.ofValue m.2) := by
  induction members with
  | nil => rw [Node.ofMembers, List.map_nil]
  | cons m rest ih => rw [Node.ofMembers, ih, List.map_cons, nameNode]

end SchemaToJava.Reading

namespace SchemaToJava.Json

/-- The numbers of the value are within their range, and it nests no deeper than given. -/
inductive Value.FitsIn : Nat → Value → Prop
  | null {depth : Nat} : FitsIn depth .null
  | bool {depth : Nat} {b : Bool} : FitsIn depth (.bool b)
  | number {depth : Nat} {n : Number} : n.Fits → FitsIn depth (.number n)
  | string {depth : Nat} {s : String} : FitsIn depth (.string s)
  | array {depth : Nat} {items : List Value} :
      (∀ x ∈ items, FitsIn depth x) → FitsIn (depth + 1) (.array items)
  | object {depth : Nat} {members : List (String × Value)} :
      (∀ m ∈ members, FitsIn depth m.2) → FitsIn (depth + 1) (.object members)

end SchemaToJava.Json

namespace SchemaToJava.Reading

open Json Outcome

variable {α β : Type} {n : Node} {depth : Nat}

theorem settle_nameNode (depth : Nat) (name : String) :
    (nameNode name).settle depth = pure (nameNode name) := by
  cases depth <;> rfl

/-- The tree of a value is settled as it is. -/
theorem settle_ofValue {v : Value} (h : v.FitsIn depth) :
    (Node.ofValue v).settle depth = pure (Node.ofValue v) := by
  induction h with
  | null | bool | number | string =>
    unfold Node.ofValue
    cases ‹Nat› <;> rfl
  | @array depth items _ ih =>
    have hitems := mapM_eq_pure ih
    unfold Node.ofValue Node.settle Node.settleIn
    rw [ofItems_eq]
    dsimp only [Node.follow]
    rw [pure_bind]
    dsimp only
    rw [hitems]
    rfl
  | @object depth members _ ih =>
    have hmembers : (members.map fun m => (nameNode m.1, Node.ofValue m.2)).mapM
        (fun m => do return (← Node.settle depth m.1, ← Node.settle depth m.2)) =
        pure (members.map fun m => (nameNode m.1, Node.ofValue m.2)) :=
      mapM_eq_pure fun m hm => by rw [settle_nameNode, pure_bind, ih m hm, pure_bind]
    unfold Node.ofValue Node.settle Node.settleIn
    rw [ofMembers_eq]
    dsimp only [Node.follow]
    rw [pure_bind]
    dsimp only
    rw [hmembers]
    rfl

/-- Settling the scalar of a plain tree keeps it plain. -/
theorem isPlain_settleScalar {s : Scalar} (hs : s.IsPlain) {a : Atom}
    (h : s.value = .ok a) : (Node.scalar { Scalar.ofAtom a with place := s.place }).IsPlain := by
  cases hs with
  | ofAtom hfits =>
    obtain rfl := Except.ok.inj h
    exact .scalar (.ofAtom hfits)
  | flawed => cases h

/-- Plain trees stay plain when they are settled. -/
theorem isPlain_settleIn {inner : Option (Node → Read Node)}
    (hinner : ∀ read ∈ inner, ∀ n m : Node, n.IsPlain → Gives (read n) m → m.IsPlain) {m : Node}
    (hn : n.IsPlain) (h : Gives (n.settleIn inner) m) : m.IsPlain := by
  unfold Node.settleIn at h
  rw [follow_of_isPlain hn, pure_bind] at h
  cases hn with
  | scalar hs =>
    obtain ⟨a, ha, h⟩ := h.bind
    rw [gives_pure] at h
    subst h
    exact isPlain_settleScalar hs (gives_lift.1 ha)
  | @list items brokenOff typed positional hitems =>
    cases typed with
    | true => exact absurd h not_gives_throw
    | false =>
      cases inner with
      | none => exact absurd h not_gives_throw
      | some read =>
        obtain ⟨ms, hms, h⟩ := h.bind
        obtain ⟨_, -, h⟩ := h.bind
        rw [gives_pure] at h
        subst h
        refine .list fun m hm => ?_
        obtain ⟨n, hn, hread⟩ := exists_left_of_mem hms.mapM hm
        exact hinner read rfl n m (hitems n hn) hread
  | @table members brokenOff typed hkeys hvalues =>
    cases typed with
    | true => exact absurd h not_gives_throw
    | false =>
      cases inner with
      | none => exact absurd h not_gives_throw
      | some read =>
        obtain ⟨ms, hms, h⟩ := h.bind
        obtain ⟨_, -, h⟩ := h.bind
        rw [gives_pure] at h
        subst h
        have hmember : ∀ m ∈ ms, m.1.IsPlain ∧ m.2.IsPlain := by
          intro m hm
          obtain ⟨⟨key, n⟩, hn, h⟩ := exists_left_of_mem hms.mapM hm
          obtain ⟨key', hkey, h⟩ := h.bind
          obtain ⟨n', hn', h⟩ := h.bind
          rw [gives_pure] at h
          subst h
          exact ⟨hinner read rfl key key' (hkeys _ hn) hkey,
            hinner read rfl n n' (hvalues _ hn) hn'⟩
        exact .table (fun m hm => (hmember m hm).1) fun m hm => (hmember m hm).2
  | broken => exact absurd h not_gives_throw

/-- A plain tree stays plain when it is settled. -/
theorem isPlain_settle {m : Node} (hn : n.IsPlain) (h : Gives (n.settle depth) m) :
    m.IsPlain := by
  induction depth generalizing n m with
  | zero => exact isPlain_settleIn (by simp) hn h
  | succ depth ih =>
    refine isPlain_settleIn (fun read hread n m => ?_) hn h
    obtain rfl := Option.some.inj hread
    exact ih

theorem setMember_of_not_mem {name : String} {v : Value} {members : List (String × Value)}
    (h : name ∉ members.map Prod.fst) :
    Value.setMember name v members = members ++ [(name, v)] := by
  induction members with
  | nil => rfl
  | cons m rest ih =>
    rw [List.map_cons, List.mem_cons, not_or] at h
    rw [Value.setMember, if_neg (Ne.symm h.1), ih h.2, List.cons_append]

/-- Setting a member adds it or takes the place of another, and keeps names distinct. -/
theorem setMember_spec (name : String) (v : Value) (members : List (String × Value)) :
    (∀ m ∈ Value.setMember name v members, m = (name, v) ∨ m ∈ members) ∧
      ((members.map Prod.fst).Nodup → ((Value.setMember name v members).map Prod.fst).Nodup) := by
  induction members with
  | nil => simp [Value.setMember]
  | cons m rest ih =>
    rw [Value.setMember]
    split
    · next heq =>
      subst heq
      refine ⟨fun other hother => ?_, fun h => h⟩
      rcases List.mem_cons.1 hother with rfl | hrest
      · exact .inl rfl
      · exact .inr (List.mem_cons_of_mem m hrest)
    · next hne =>
      constructor
      · intro other hother
        rcases List.mem_cons.1 hother with rfl | hrest
        · exact .inr List.mem_cons_self
        · exact (ih.1 other hrest).imp_right (List.mem_cons_of_mem m)
      · intro h
        rw [List.map_cons, List.nodup_cons] at h ⊢
        refine ⟨fun hmem => ?_, ih.2 h.2⟩
        obtain ⟨other, hother, hfst⟩ := List.mem_map.1 hmem
        rcases ih.1 other hother with rfl | hrest
        · exact hne hfst.symm
        · exact h.1 (hfst ▸ List.mem_map.2 ⟨other, hrest, rfl⟩)

/-- An object has each name but once. -/
theorem exists_ofMembers (members : List (String × Value)) :
    ∃ others, Value.ofMembers members = .object others ∧ (others.map Prod.fst).Nodup ∧
      ∀ m ∈ others, m ∈ members := by
  have hall (before : List (String × Value)) (hbefore : (before.map Prod.fst).Nodup) :
      let others := members.foldl (fun acc m => Value.setMember m.1 m.2 acc) before
      (others.map Prod.fst).Nodup ∧ ∀ m ∈ others, m ∈ before ∨ m ∈ members := by
    induction members generalizing before with
    | nil => exact ⟨hbefore, fun m hm => .inl hm⟩
    | cons first rest ih =>
      obtain ⟨hset, hnodup⟩ := setMember_spec first.1 first.2 before
      obtain ⟨hnames, hmem⟩ := ih _ (hnodup hbefore)
      refine ⟨hnames, fun m hm => ?_⟩
      rcases hmem m hm with hm | hm
      · rcases hset m hm with rfl | hm
        · exact .inr List.mem_cons_self
        · exact .inl hm
      · exact .inr (List.mem_cons_of_mem first hm)
  obtain ⟨hnames, hmem⟩ := hall [] .nil
  exact ⟨_, rfl, hnames, fun m hm => (hmem m hm).resolve_left List.not_mem_nil⟩

theorem foldl_setMember {before members : List (String × Value)}
    (h : ((before ++ members).map Prod.fst).Nodup) :
    members.foldl (fun acc m => Value.setMember m.1 m.2 acc) before = before ++ members := by
  induction members generalizing before with
  | nil => exact (List.append_nil before).symm
  | cons m rest ih =>
    have hnot : m.1 ∉ before.map Prod.fst := by
      rw [List.map_append, List.map_cons, List.nodup_append] at h
      exact fun hmem => h.2.2 _ hmem _ List.mem_cons_self rfl
    rw [List.foldl_cons, setMember_of_not_mem hnot, ih (by simpa using h), List.append_assoc,
      List.singleton_append]

/-- Members with distinct names make the object that they are. -/
theorem ofMembers_of_nodup {members : List (String × Value)}
    (h : (members.map Prod.fst).Nodup) : Value.ofMembers members = .object members :=
  congrArg Value.object (foldl_setMember h)

/-- What has been read can be written and read again in the same depth. -/
structure Recovered (read : Node → Read α) (write : α → Value) (depth : Nat) (x : α) : Prop where
  fits : (write x).FitsIn depth
  again : read (Node.ofValue (write x)) = pure x

/-- All that is read from plain trees can be written and read again. -/
def Recovers (read : Node → Read α) (write : α → Value) (depth : Nat) : Prop :=
  ∀ n x, n.IsPlain → Gives (read n) x → Recovered read write depth x

/-- Only the tree of nothing is read as what is written as nothing. -/
def KeepsNull (read : Node → Read α) (write : α → Value) : Prop :=
  ∀ n x, n.IsPlain → Gives (read n) x → write x = .null → n = .scalar (.ofAtom .null)

/-- What is made of something that can be read again can be read again. -/
theorem recovers_map {read : Node → Read α} {write : α → Value} {write' : β → Value}
    {f : α → β} (h : Recovers read write depth) (hwrite : ∀ x, write' (f x) = write x) :
    Recovers (fun n => do return f (← read n)) write' depth := by
  intro n y hn hy
  obtain ⟨x, hx, hy⟩ := hy.bind
  obtain rfl := gives_pure.1 hy
  obtain ⟨hfits, hagain⟩ := h n x hn hx
  refine ⟨hwrite x ▸ hfits, ?_⟩
  rw [hwrite, hagain, pure_bind]

/-- A scalar that is read as a value is written and read again as this value. -/
theorem recovered_scalar {s : Scalar} (hs : s.IsPlain) {v : Value}
    (h : Gives (Node.toValue depth (.scalar s)) v) :
    Recovered (Node.toValue depth) id depth v ∧ (v = .null → s = .ofAtom .null) := by
  cases hs with
  | flawed => cases depth <;> exact absurd h not_gives_throw
  | @ofAtom b hfits =>
    cases b with
    | unbounded => exact hfits.elim
    | null =>
      have h : Gives (pure .null : Read Value) v := by cases depth <;> exact h
      rw [gives_pure] at h
      subst h
      exact ⟨⟨.null, by cases depth <;> rfl⟩, fun _ => rfl⟩
    | bool b =>
      have h : Gives (pure (.bool b) : Read Value) v := by cases depth <;> exact h
      rw [gives_pure] at h
      subst h
      exact ⟨⟨.bool, by cases depth <;> rfl⟩, fun h => by cases h⟩
    | number m =>
      have h : Gives (pure (.number m) : Read Value) v := by cases depth <;> exact h
      rw [gives_pure] at h
      subst h
      exact ⟨⟨.number hfits, by cases depth <;> rfl⟩, fun h => by cases h⟩
    | string t =>
      have h : Gives (pure (.string t) : Read Value) v := by cases depth <;> exact h
      rw [gives_pure] at h
      subst h
      exact ⟨⟨.string, by cases depth <;> rfl⟩, fun h => by cases h⟩

/-- An array that has been read is read again if its items are. -/
theorem recovered_array {read : Node → Read Value} (hread : Recovers read id depth)
    {items : List Node} {brokenOff : Option Fault} {positional : Bool}
    (hitems : ∀ n ∈ items, n.IsPlain) {v : Value}
    (h : Gives (Node.valueIn (some read) (.list items brokenOff false positional)) v) :
    Recovered (Node.valueIn (some read)) id (depth + 1) v ∧ v ≠ .null := by
  unfold Node.valueIn at h
  dsimp only [Node.follow] at h
  rw [pure_bind] at h
  obtain ⟨xs, hxs, h⟩ := h.bind
  obtain ⟨_, -, h⟩ := h.bind
  rw [gives_pure] at h
  subst h
  have hall : ∀ x ∈ xs, Recovered read id depth x := by
    intro x hx
    obtain ⟨n, hn, hx⟩ := exists_left_of_mem hxs.mapM hx
    exact hread n x (hitems n hn) hx
  have hagain : (xs.map Node.ofValue).mapM read = pure (xs.map id) :=
    mapM_eq_pure fun x hx => (hall x hx).again
  refine ⟨⟨.array fun x hx => (hall x hx).fits, ?_⟩, by simp⟩
  unfold id Node.ofValue Node.valueIn
  rw [ofItems_eq]
  dsimp only [Node.follow]
  rw [pure_bind]
  dsimp only
  rw [hagain, List.map_id]
  rfl

/-- An object that has been read is read again if what its members hold is. -/
theorem recovered_object {read : Node → Read Value} (hread : Recovers read id depth)
    {members : List (Node × Node)} {brokenOff : Option Fault}
    (hvalues : ∀ m ∈ members, m.2.IsPlain) {v : Value}
    (h : Gives (Node.valueIn (some read) (.table members brokenOff false)) v) :
    Recovered (Node.valueIn (some read)) id (depth + 1) v ∧ v ≠ .null := by
  unfold Node.valueIn at h
  dsimp only [Node.follow] at h
  rw [pure_bind] at h
  obtain ⟨ms, hms, h⟩ := h.bind
  obtain ⟨_, -, h⟩ := h.bind
  rw [gives_pure] at h
  subst h
  obtain ⟨others, heq, hnames, hmem⟩ := exists_ofMembers ms
  have hall : ∀ m ∈ others, Recovered read id depth m.2 := by
    intro m hm
    obtain ⟨⟨key, n⟩, hn, h⟩ := exists_left_of_mem hms.mapM (hmem m hm)
    obtain ⟨name, -, h⟩ := h.bind
    obtain ⟨x, hx, h⟩ := h.bind
    rw [gives_pure] at h
    subst h
    exact hread n x (hvalues _ hn) hx
  have hagain : (others.map fun m => (nameNode m.1, Node.ofValue m.2)).mapM
      (fun m => do return (← m.1.keyText, ← read m.2)) = pure (others.map id) := by
    refine mapM_eq_pure fun m hm => ?_
    have hread : read (Node.ofValue m.2) = pure m.2 := (hall m hm).again
    have hkey : (nameNode m.1).keyText = pure m.1 := rfl
    rw [hkey, pure_bind, hread, pure_bind, id]
  rw [heq]
  refine ⟨⟨.object fun m hm => (hall m hm).fits, ?_⟩, by simp⟩
  unfold id Node.ofValue Node.valueIn
  rw [ofMembers_eq]
  dsimp only [Node.follow]
  rw [pure_bind]
  dsimp only
  rw [hagain, List.map_id, pure_bind]
  exact congrArg (pure : Value → Read Value) (ofMembers_of_nodup hnames)

/-- Values in containers are read again if the entries of the containers are. -/
theorem recovered_valueIn {read : Node → Read Value} (hread : Recovers read id depth) {v : Value}
    (hn : n.IsPlain) (hscalar : ∀ s, n ≠ .scalar s) (h : Gives (n.valueIn (some read)) v) :
    Recovered (Node.valueIn (some read)) id (depth + 1) v ∧ v ≠ .null := by
  cases hn with
  | scalar hs => exact absurd rfl (hscalar _)
  | @list items brokenOff typed positional hitems =>
    cases typed with
    | true => exact absurd h not_gives_throw
    | false => exact recovered_array hread hitems h
  | @table members brokenOff typed hkeys hvalues =>
    cases typed with
    | true => exact absurd h not_gives_throw
    | false => exact recovered_object hread hvalues h
  | broken => exact absurd h not_gives_throw

/-- A value that has been read is read again from its own tree. -/
theorem recovers_toValue (depth : Nat) :
    Recovers (Node.toValue depth) id depth ∧ KeepsNull (Node.toValue depth) id := by
  have hboth : ∀ n v, n.IsPlain → Gives (Node.toValue depth n) v →
      Recovered (Node.toValue depth) id depth v ∧ (v = .null → n = .scalar (.ofAtom .null)) := by
    induction depth with
    | zero =>
      intro n v hn h
      cases hn with
      | scalar hs =>
        obtain ⟨hrecovered, hnull⟩ := recovered_scalar hs h
        exact ⟨hrecovered, fun hv => congrArg Node.scalar (hnull hv)⟩
      | @list _ _ typed _ _ => cases typed <;> exact absurd h not_gives_throw
      | @table _ _ typed _ _ => cases typed <;> exact absurd h not_gives_throw
      | broken => exact absurd h not_gives_throw
    | succ depth ih =>
      intro n v hn h
      by_cases hscalar : ∃ s, n = .scalar s
      · obtain ⟨s, rfl⟩ := hscalar
        cases hn with
        | scalar hs =>
          obtain ⟨hrecovered, hnull⟩ := recovered_scalar hs h
          exact ⟨hrecovered, fun hv => congrArg Node.scalar (hnull hv)⟩
      · have hread : Recovers (Node.toValue depth) id depth := fun n x hn hx => (ih n x hn hx).1
        obtain ⟨hrecovered, hne⟩ :=
          recovered_valueIn hread hn (fun s hs => hscalar ⟨s, hs⟩) h
        exact ⟨hrecovered, fun hv => absurd hv hne⟩
  exact ⟨fun n v hn h => (hboth n v hn h).1, fun n v hn h => (hboth n v hn h).2⟩

end SchemaToJava.Reading
