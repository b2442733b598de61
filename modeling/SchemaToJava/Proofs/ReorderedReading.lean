import SchemaToJava.Proofs.KeptRecords
import SchemaToJava.Proofs.SortedValues

/-!
Readers that take no notice of the order of members. What such a reader finds in a tree it also
finds in the tree with the members of its objects in another order, up to what is not looked at in a
value. Readers of lists and dictionaries are such readers if those of their entries are.
-/
namespace SchemaToJava.Schema

open Reading Json Outcome

variable {α β : Type} {p : Place}

/-- What the first step finds, the second one finds without regard to anything else, up to what
`shown` leaves out. -/
def ReadsAlike (shown : α → β) (r r' : Read α) : Prop :=
  ∀ ⦃x : α⦄, Gives r x → ∃ x', r' = pure x' ∧ shown x' = shown x

/-- What the reader finds, it also finds in any other order. -/
def Respects (p : Place) (shown : α → β) (read : Node → Read α) : Prop :=
  ∀ ⦃n n' : Node⦄, Reordered p n n' → ReadsAlike shown (read n) (read n')

theorem pure_of_gives_lift {e : Except Fault α} {x : α} (h : Gives (liftM e : Read α) x) :
    (liftM e : Read α) = pure x := by
  rw [gives_lift] at h
  rw [h]
  rfl

theorem respects_readText (p : Place) (depth : Nat) : Respects p id (readText depth) := by
  intro n n' h x hx
  cases h with
  | @scalar _ s _ =>
    have hx : Gives (liftM s.text) x := hx
    exact ⟨x, pure_of_gives_lift hx, rfl⟩
  | list => exact absurd hx not_gives_throw
  | table => exact absurd hx not_gives_throw

theorem respects_readFlag (p : Place) (depth : Nat) : Respects p id (readFlag depth) := by
  intro n n' h x hx
  cases h with
  | @scalar _ s _ =>
    have hx : Gives (liftM s.flag) x := hx
    exact ⟨x, pure_of_gives_lift hx, rfl⟩
  | list => exact absurd hx not_gives_throw
  | table => exact absurd hx not_gives_throw

/-- A value that may be absent is absent in every order. -/
theorem respects_optional {shown : α → β} {read : Node → Read α} (hread : Respects p shown read) :
    Respects p (Option.map shown) (Reading.optional read) := by
  have hpresent {n n' : Node} (h : Reordered p n n') : ReadsAlike (Option.map shown)
      (do return some (← read n)) (do return some (← read n')) := by
    intro x hx
    obtain ⟨y, hy, hx⟩ := hx.bind
    obtain rfl := gives_pure.1 hx
    obtain ⟨y', hy', hshown⟩ := hread h hy
    exact ⟨some y', by rw [hy', pure_bind], congrArg some hshown⟩
  intro n n' h x hx
  unfold Reading.optional at hx ⊢
  have hfollow : n.follow = pure n ∧ n'.follow = pure n' := by
    cases h <;> exact ⟨rfl, rfl⟩
  rw [hfollow.1, pure_bind] at hx
  rw [hfollow.2, pure_bind]
  cases h with
  | @scalar _ s hs =>
    obtain ⟨a, ha, hx⟩ := Gives.bind hx
    dsimp only
    rw [pure_of_gives_lift ha, pure_bind]
    cases a with
    | true =>
      obtain rfl := gives_pure.1 hx
      exact ⟨none, rfl, rfl⟩
    | false => exact hpresent (.scalar hs) hx
  | list hlength hitems => exact hpresent (.list hlength hitems) hx
  | table hnodup hnames hmembers hperm hvalue =>
    exact hpresent (.table hnodup hnames hmembers hperm hvalue) hx

/-- What is made of the result is made of it in any order. -/
theorem respects_map {γ : Type} {shown : α → α} {shown' : γ → γ} {f : α → γ}
    {read : Node → Read α} (h : Respects p shown read)
    (hf : ∀ x, shown' (f x) = f (shown x)) :
    Respects p shown' (fun n => do return f (← read n)) := by
  intro n n' hreordered y hy
  obtain ⟨x, hx, hy⟩ := hy.bind
  obtain rfl := gives_pure.1 hy
  obtain ⟨x', hx', hshown⟩ := h hreordered hx
  refine ⟨f x', ?_, ?_⟩
  · dsimp only
    rw [hx', pure_bind]
  · rw [hf, hf, hshown]

/-- What is found in the one list is found in the other, item by item. -/
theorem exists_mapM_eq_pure {γ δ : Type} {f : γ → Read α} {f' : δ → Read α} {shown : α → β}
    {xs : List γ} {xs' : List δ} {ys : List α}
    (hf : List.Forall₂ (fun x x' => ReadsAlike shown (f x) (f' x')) xs xs')
    (hys : List.Forall₂ (fun x y => Gives (f x) y) xs ys) :
    ∃ ys', List.Forall₂ (fun x' y' => f' x' = pure y') xs' ys' ∧ ys'.map shown = ys.map shown := by
  induction hf generalizing ys with
  | nil =>
    cases hys
    exact ⟨[], .nil, rfl⟩
  | cons hfirst _ ih =>
    cases hys with
    | cons hy hys =>
      obtain ⟨y', hy', hshown⟩ := hfirst hy
      obtain ⟨ys', hys', hall⟩ := ih hys
      exact ⟨y' :: ys', .cons hy' hys', by rw [List.map_cons, List.map_cons, hshown, hall]⟩

theorem mapM_eq_pure_of_forall₂ {γ : Type} {f : γ → Read α} {xs : List γ} {ys : List α}
    (h : List.Forall₂ (fun x y => f x = pure y) xs ys) : xs.mapM f = pure ys := by
  induction h with
  | nil => rfl
  | cons hy _ ih => rw [List.mapM_cons, hy, pure_bind, ih, pure_bind]

/-- A list is read in any order inside its items. -/
theorem respects_listOf {shown : α → β} {item : Reader α} {depth : Nat}
    (hitem : ∀ d < depth, ∀ i, Respects (p.item i) shown (item d)) :
    Respects p (List.map shown) (listOf item depth) := by
  intro n n' h xs hxs
  cases h with
  | @scalar _ s hs =>
    change Gives (if s.vacant then pure [] else throw s.refusal) xs at hxs
    rw [not_vacant hs] at hxs
    exact absurd hxs not_gives_throw
  | table => cases depth <;> exact absurd hxs not_gives_throw
  | @list _ items items' hlength hitems =>
    cases depth with
    | zero => exact absurd hxs not_gives_throw
    | succ depth =>
      have hall : List.Forall₂ (fun n n' => ReadsAlike shown (item depth n) (item depth n'))
          items items' :=
        forall₂_of_getElem? hlength fun i n n' hn hn' =>
          hitem depth (Nat.lt_succ_self depth) i (hitems i n n' hn hn')
      unfold listOf belowDepth listIn at hxs ⊢
      dsimp only [Node.follow] at hxs ⊢
      rw [pure_bind] at hxs ⊢
      dsimp only at hxs ⊢
      obtain ⟨ys, hys, hxs⟩ := hxs.bind
      obtain ⟨_, -, hxs⟩ := Gives.bind hxs
      obtain rfl := gives_pure.1 hxs
      obtain ⟨ys', hys', hshown⟩ := exists_mapM_eq_pure hall hys.mapM
      refine ⟨ys', ?_, hshown⟩
      rw [mapM_eq_pure_of_forall₂ hys', pure_bind]
      rfl

section Entries

def IsRead (read : Node → Read α) (members : List (String × Node))
    (entries : List (String × α)) : Prop :=
  List.Forall₂ (fun m entry => m.1 = entry.1 ∧ Gives (read m.2) entry.2) members entries

/-- The entries are read from members without regard to anything else. -/
def IsPurelyRead (read : Node → Read α) (members : List (String × Node))
    (entries : List (String × α)) : Prop :=
  List.Forall₂ (fun m entry => m.1 = entry.1 ∧ read m.2 = pure entry.2) members entries

variable {read : Node → Read α} {members same members' : List (String × Node)}
  {entries : List (String × α)}

theorem IsRead.names_eq (h : IsRead read members entries) :
    entries.map Prod.fst = members.map Prod.fst := by
  induction h with
  | nil => rfl
  | cons hentry _ ih => rw [List.map_cons, List.map_cons, ih, hentry.1]

theorem IsPurelyRead.names_eq (h : IsPurelyRead read members entries) :
    entries.map Prod.fst = members.map Prod.fst := by
  induction h with
  | nil => rfl
  | cons hentry _ ih => rw [List.map_cons, List.map_cons, ih, hentry.1]

/-- What is read from members is read from them in any order, up to what is left out, and in that
order. -/
theorem exists_isPurelyRead {shown : α → β} (hread : ∀ name, Respects (p.member name) shown read)
    (halike : List.Forall₂ p.Alike members same) (hperm : same.Perm members')
    (hentries : IsRead read members entries) :
    ∃ ordered entries', IsPurelyRead read same ordered ∧ IsPurelyRead read members' entries' ∧
      ordered.Perm entries' ∧
      (ordered.map fun entry => (entry.1, shown entry.2)) =
        entries.map fun entry => (entry.1, shown entry.2) := by
  obtain ⟨ordered, hordered, hshown⟩ : ∃ ordered, IsPurelyRead read same ordered ∧
      (ordered.map fun entry => (entry.1, shown entry.2)) =
        entries.map fun entry => (entry.1, shown entry.2) := by
    clear hperm
    induction halike generalizing entries with
    | nil =>
      cases hentries
      exact ⟨[], .nil, rfl⟩
    | @cons m m' rest rest' hm _ ih =>
      cases hentries with
      | @cons _ entry _ later hentry hlater =>
        obtain ⟨ordered, hordered, hshown⟩ := ih hlater
        obtain ⟨x, hx, hshow⟩ := hread m.1 hm.reordered hentry.2
        refine ⟨(entry.1, x) :: ordered, .cons ⟨hm.name.symm.trans hentry.1, hx⟩ hordered, ?_⟩
        rw [List.map_cons, List.map_cons, hshown, hshow]
  obtain ⟨entries', hentries', hsame⟩ := List.perm_comp_forall₂ hperm.symm hordered
  exact ⟨ordered, entries', hordered, hentries', hsame.symm, hshown⟩

theorem exists_isRead_of_readEntries {before d : Dictionary String α}
    (h : Gives (readEntries read before (namedMembers members)) d) :
    ∃ entries, IsRead read members entries ∧
      d = entries.foldl (fun d entry => d.insert entry.1 entry.2) before := by
  induction members generalizing before with
  | nil =>
    obtain rfl := gives_pure.1 h
    exact ⟨[], .nil, rfl⟩
  | cons m rest ih =>
    change Gives (read m.2 >>= fun x =>
      readEntries read (before.insert m.1 x) (namedMembers rest)) d at h
    obtain ⟨x, hx, h⟩ := h.bind
    obtain ⟨entries, hentries, hd⟩ := ih h
    exact ⟨(m.1, x) :: entries, .cons ⟨rfl, hx⟩ hentries, hd⟩

theorem readEntries_of_isPurelyRead (h : IsPurelyRead read members entries)
    (before : Dictionary String α) : readEntries read before (namedMembers members) =
      pure (entries.foldl (fun d entry => d.insert entry.1 entry.2) before) := by
  induction h generalizing before with
  | nil => rfl
  | @cons m entry rest later hentry _ ih =>
    change (read m.2 >>= fun x => readEntries read (before.insert m.1 x) (namedMembers rest)) = _
    rw [hentry.2, pure_bind, ih, hentry.1]
    rfl

/-- A dictionary is read in any order of its entries, for their keys are distinct. -/
theorem respects_dictionaryOf {shown : α → β} {value : Reader α} {depth : Nat}
    (hvalue : ∀ d < depth, ∀ name, Respects (p.member name) shown (value d)) :
    Respects p (fun d : Dictionary String α => d.mapValues shown) (dictionaryOf value depth) := by
  intro n n' h d hd
  cases h with
  | @scalar _ s hs =>
    change Gives (if s.vacant then pure .empty else throw s.refusal) d at hd
    rw [not_vacant hs] at hd
    exact absurd hd not_gives_throw
  | list => cases depth <;> exact absurd hd not_gives_throw
  | @table _ members same members' hnodup hnames hmembers hperm hvalues =>
    cases depth with
    | zero => exact absurd hd not_gives_throw
    | succ depth =>
      unfold dictionaryOf belowDepth dictionaryIn at hd ⊢
      dsimp only [Node.follow] at hd ⊢
      rw [pure_bind] at hd ⊢
      dsimp only at hd ⊢
      obtain ⟨found, hfound, hd⟩ := hd.bind
      obtain ⟨_, -, hd⟩ := Gives.bind hd
      obtain rfl := gives_pure.1 hd
      obtain ⟨entries, hentries, rfl⟩ := exists_isRead_of_readEntries hfound
      obtain ⟨ordered, entries', hordered, hentries', hsame, hshown⟩ :=
        exists_isPurelyRead (hvalue depth (Nat.lt_succ_self depth))
          (Place.alike_of_members hnames hmembers) hperm hentries
      have hdistinct : (ordered.map Prod.fst).Nodup := by
        rw [hordered.names_eq, ← hnames]
        exact hnodup
      refine ⟨.ofList entries', ?_, ?_⟩
      · rw [readEntries_of_isPurelyRead hentries', pure_bind]
        rfl
      · calc (Dictionary.ofList entries').mapValues shown
          _ = (Dictionary.ofList ordered).mapValues shown := by
            rw [Dictionary.ofList_perm hdistinct hsame]
          _ = (Dictionary.ofList entries).mapValues shown := by
            rw [Dictionary.mapValues_ofList, Dictionary.mapValues_ofList, hshown]

end Entries

section Values

theorem item_value (i : Nat) : Place.value.item i = .value := rfl

theorem member_value (name : String) : Place.value.member name = .value := rfl

/-- In a value nothing changes its place. -/
theorem Reordered.eq_of_value {n n' : Node} (h : Reordered p n n') (hp : p = .value) : n = n' := by
  induction h with
  | scalar => rfl
  | @list p items items' hlength hitems ih =>
    subst hp
    have hsame : List.Forall₂ Eq items items' :=
      forall₂_of_getElem? hlength fun i n n' hn hn' => ih i n n' hn hn' (item_value i)
    rw [List.forall₂_eq_eq_eq] at hsame
    rw [hsame]
  | @table p members same members' hnodup hnames hmembers hperm hvalue ih =>
    subst hp
    obtain rfl := hvalue rfl
    have hsame : List.Forall₂ Eq members same := by
      refine forall₂_of_getElem? (length_eq_of_names hnames) fun i m m' hm hm' => ?_
      exact Prod.ext (name_eq_of_names hnames hm hm') (ih i m m' hm hm' (member_value m.1))
    rw [List.forall₂_eq_eq_eq] at hsame
    rw [hsame]

/-- Either of two trees has the order of the other changed. -/
theorem Reordered.symm {n n' : Node} (h : Reordered p n n') : Reordered p n' n := by
  induction h with
  | scalar hs => exact .scalar hs
  | list hlength _ ih => exact .list hlength.symm fun i n n' hn hn' => ih i n' n hn' hn
  | @table p members same members' hnodup hnames hmembers hperm hvalue ih =>
    have hwhole := Reordered.table hnodup hnames hmembers hperm hvalue
    by_cases hp : p = .value
    · have heq := hwhole.eq_of_value hp
      rw [heq] at hwhole ⊢
      exact hwhole
    have halike : List.Forall₂ p.Alike same members := by
      refine Place.alike_of_members hnames.symm fun i m m' hm hm' => ?_
      rw [name_eq_of_names hnames.symm hm hm']
      exact ih i m' m hm' hm
    -- the members of the first tree in the order of the second
    obtain ⟨others, hothers, hback⟩ := List.perm_comp_forall₂ hperm.symm halike
    have hnodup' : (members'.map Prod.fst).Nodup := by
      rw [← (hperm.map Prod.fst).nodup_iff, ← hnames]
      exact hnodup
    exact .of_alike hnodup' hothers hback fun hp' => absurd hp' hp

/-- A tree that has another order has its own order too, wherever it stands. -/
theorem Reordered.refl_other {n n' : Node} (h : Reordered p n n') : Reordered .other n n := by
  induction h with
  | scalar hs => exact .scalar hs
  | @list p items items' hlength hitems ih =>
    refine .list rfl fun i n m hn hm => ?_
    obtain rfl := Option.some.inj (hn.symm.trans hm)
    have hlt : i < items'.length := hlength ▸ (List.getElem?_eq_some_iff.1 hn).1
    exact ih i n items'[i] hn (List.getElem?_eq_getElem hlt)
  | @table p members same members' hnodup hnames hmembers hperm hvalue ih =>
    refine .table hnodup rfl (fun i m m' hm hm' => ?_) (.refl members) fun _ => rfl
    obtain rfl := Option.some.inj (hm.symm.trans hm')
    have hlt : i < same.length :=
      length_eq_of_names hnames ▸ (List.getElem?_eq_some_iff.1 hm).1
    exact ih i m same[i] hm (List.getElem?_eq_getElem hlt)

theorem isRead_of_mapM {read : Node → Read α} {members : List (String × Node)}
    {entries : List (String × α)}
    (h : Gives ((namedMembers members).mapM fun (key, n) => do
      return (← key.keyText, ← read n)) entries) : IsRead read members entries := by
  refine (List.forall₂_map_left_iff.1 h.mapM).imp fun m entry hentry => ?_
  change Gives (do let x ← read m.2; return (m.1, x)) entry at hentry
  obtain ⟨x, hx, hentry⟩ := hentry.bind
  obtain rfl := gives_pure.1 hentry
  exact ⟨rfl, hx⟩

theorem mapM_of_isPurelyRead {read : Node → Read α} {members : List (String × Node)}
    {entries : List (String × α)} (h : IsPurelyRead read members entries) :
    ((namedMembers members).mapM fun (key, n) => do return (← key.keyText, ← read n)) =
      pure entries := by
  refine mapM_eq_pure_of_forall₂ (List.forall₂_map_left_iff.2 (h.imp fun m entry hentry => ?_))
  change (do let x ← read m.2; return (m.1, x)) = _
  rw [hentry.2, pure_bind, hentry.1]

/-- A scalar is read as one value. -/
theorem exists_toValue_scalar {s : Scalar} (hs : s.IsPlain) {depth : Nat} {v : Value}
    (h : Gives ((Node.scalar s).toValue depth) v) : (Node.scalar s).toValue depth = pure v := by
  cases hs with
  | flawed => cases depth <;> exact absurd h not_gives_throw
  | @ofAtom a _ =>
    obtain ⟨w, hw⟩ : ∃ w, (Node.scalar (.ofAtom a)).toValue depth = pure w := by
      cases a <;> cases depth <;> exact ⟨_, rfl⟩
    rw [hw, gives_pure] at h
    rw [hw, h]

/-- A list is read alike if its items are. -/
theorem readsAlike_list {read : Node → Read Value} {items items' : List Node}
    (hall : List.Forall₂ (fun n n' => ReadsAlike Value.sorted (read n) (read n')) items items') :
    ReadsAlike Value.sorted (Node.valueIn (some read) (.list items none))
      (Node.valueIn (some read) (.list items' none)) := by
  intro v hv
  unfold Node.valueIn at hv ⊢
  dsimp only [Node.follow] at hv ⊢
  rw [pure_bind] at hv ⊢
  dsimp only at hv ⊢
  obtain ⟨xs, hxs, hv⟩ := hv.bind
  obtain ⟨_, -, hv⟩ := hv.bind
  obtain rfl := gives_pure.1 hv
  obtain ⟨xs', hxs', hsorted⟩ := exists_mapM_eq_pure hall hxs.mapM
  refine ⟨.array xs', ?_, ?_⟩
  · rw [mapM_eq_pure_of_forall₂ hxs', pure_bind]
    rfl
  · rw [Value.sorted, Value.sorted, Value.sortedItems_eq, Value.sortedItems_eq, hsorted]

/-- An object is read as a value in any order, up to sorting. -/
theorem readsAlike_table {read : Node → Read Value} (hread : Respects .other Value.sorted read)
    {members same members' : List (String × Node)} (hnodup : (members.map Prod.fst).Nodup)
    (halike : List.Forall₂ Place.other.Alike members same) (hperm : same.Perm members') :
    ReadsAlike Value.sorted (Node.valueIn (some read) (.table (namedMembers members) none))
      (Node.valueIn (some read) (.table (namedMembers members') none)) := by
  intro v hv
  unfold Node.valueIn at hv ⊢
  dsimp only [Node.follow] at hv ⊢
  rw [pure_bind] at hv ⊢
  dsimp only at hv ⊢
  obtain ⟨entries, hentries, hv⟩ := hv.bind
  obtain ⟨_, -, hv⟩ := hv.bind
  obtain rfl := gives_pure.1 hv
  have hisRead : IsRead read members entries := isRead_of_mapM hentries
  have hrespects (name : String) : Respects (Place.other.member name) Value.sorted read := hread
  obtain ⟨ordered, entries', hordered, hentries', hsame, hsorted⟩ :=
    exists_isPurelyRead hrespects halike hperm hisRead
  have hdistinct : (entries.map Prod.fst).Nodup := hisRead.names_eq ▸ hnodup
  have hdistinct' : (entries'.map Prod.fst).Nodup := by
    refine (hsame.map Prod.fst).nodup_iff.1 ?_
    rw [hordered.names_eq, ← Place.names_of_alike halike]
    exact hnodup
  refine ⟨.ofMembers entries', ?_, ?_⟩
  · rw [mapM_of_isPurelyRead hentries', pure_bind]
    rfl
  · rw [ofMembers_of_nodup hdistinct, ofMembers_of_nodup hdistinct']
    refine (Value.sorted_object_eq hdistinct ?_ hsame).symm
    rw [Value.sortedMembers_eq, Value.sortedMembers_eq, hsorted]

/-- A raw value is the same up to the order of the members of its objects. -/
theorem respects_sorted (depth : Nat) : Respects .other Value.sorted (readValue depth) := by
  unfold readValue
  induction depth with
  | zero =>
    intro n n' h v hv
    cases h with
    | scalar hs => exact ⟨v, exists_toValue_scalar hs hv, rfl⟩
    | list => exact absurd hv not_gives_throw
    | table => exact absurd hv not_gives_throw
  | succ depth ih =>
    intro n n' h v hv
    cases h with
    | scalar hs => exact ⟨v, exists_toValue_scalar hs hv, rfl⟩
    | list hlength hitems =>
      exact readsAlike_list
        (forall₂_of_getElem? hlength fun i n n' hn hn' => ih (hitems i n n' hn hn')) hv
    | table hnodup hnames hmembers hperm hvalue =>
      exact readsAlike_table ih hnodup (Place.alike_of_members hnames hmembers) hperm hv

/-- A value in which the order counts is the same. -/
theorem respects_readValue (depth : Nat) : Respects .value id (readValue depth) := by
  intro n n' h v hv
  obtain rfl := h.eq_of_value rfl
  obtain ⟨w, hw, -⟩ := respects_sorted depth h.refl_other hv
  have hsame : w = v := by
    rw [hw, gives_pure] at hv
    exact hv
  exact ⟨v, hsame ▸ hw, rfl⟩

end Values

end SchemaToJava.Schema
