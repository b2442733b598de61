import SchemaToJava.Proofs.ReadValues
import SchemaToJava.Schema.Document.Reading

/-!
Trees of package documents whose objects have their members in another order. Only inside a default,
a constant and the value of an enum element does the order stay, for these are values in which it
counts; which parts of a tree they are depends on the names on the way there. A tree that is kept or
skipped while a record is read is kept or skipped in the other order as well.
-/
namespace SchemaToJava.Schema

open Reading Json Outcome

/-- What a part of the tree of a package document describes. -/
inductive Place
  | package
  | config
  | types
  | typeEntry
  | elements
  | element
  | properties
  | property
  | object
  | resources
  | resource
  | functions
  | function
  /-- A value in which the order of members counts. -/
  | value
  | other
deriving DecidableEq

namespace Place

/-- What the member of an object describes. -/
def member : Place → String → Place
  | package, "config" => config
  | package, "types" => types
  | package, "provider" => resource
  | package, "resources" => resources
  | package, "functions" => functions
  | config, "variables" => properties
  | types, _ => typeEntry
  | typeEntry, "enum" => elements
  | typeEntry, "properties" => properties
  | element, "value" => value
  | properties, _ => property
  | property, "const" => value
  | property, "default" => value
  | object, "properties" => properties
  | resources, _ => resource
  | resource, "properties" => properties
  | resource, "inputProperties" => properties
  | resource, "stateInputs" => object
  | functions, _ => function
  | function, "inputs" => object
  | function, "outputs" => object
  | value, _ => value
  | _, _ => other

/-- The names of the fields of a record that may stand in an array by their places. -/
def fieldNames : Place → List String
  | package => (packageFields 0).names
  | config => (configFields 0).names
  | element => (enumFields 0).names
  | object => (objectFields 0).names
  | function => (functionFields 0).names
  | _ => []

def item : Place → Nat → Place
  | elements, _ => element
  | value, _ => value
  | p, i => (p.fieldNames[i]?).elim other p.member

end Place

def namedMembers (members : List (String × Node)) : List (Node × Node) :=
  members.map fun m => (nameNode m.1, m.2)

/-- In no object of the first tree stands a name twice, and in the second one the members of its
objects stand in some order, the same order in values. -/
inductive Reordered : Place → Node → Node → Prop
  | scalar {p : Place} {s : Scalar} : s.IsPlain → Reordered p (.scalar s) (.scalar s)
  | list {p : Place} {items items' : List Node} : items.length = items'.length →
      (∀ (i : Nat) (n n' : Node), items[i]? = some n → items'[i]? = some n' →
        Reordered (p.item i) n n') →
      Reordered p (.list items none) (.list items' none)
  | table {p : Place} {members same members' : List (String × Node)} :
      (members.map Prod.fst).Nodup → members.map Prod.fst = same.map Prod.fst →
      (∀ (i : Nat) (m m' : String × Node), members[i]? = some m → same[i]? = some m' →
        Reordered (p.member m.1) m.2 m'.2) →
      same.Perm members' → (p = .value → same = members') →
      Reordered p (.table (namedMembers members) none) (.table (namedMembers members') none)

theorem forall₂_of_getElem? {α β : Type} {R : α → β → Prop} {xs : List α} {ys : List β}
    (hlength : xs.length = ys.length)
    (h : ∀ (i : Nat) (x : α) (y : β), xs[i]? = some x → ys[i]? = some y → R x y) :
    List.Forall₂ R xs ys := by
  refine List.forall₂_iff_get.2 ⟨hlength, fun i hi hi' => ?_⟩
  exact h i _ _ (List.getElem?_eq_getElem hi) (List.getElem?_eq_getElem hi')

theorem length_eq_of_names {members same : List (String × Node)}
    (hnames : members.map Prod.fst = same.map Prod.fst) : members.length = same.length := by
  have hlength := congrArg List.length hnames
  rwa [List.length_map, List.length_map] at hlength

theorem name_eq_of_names {members same : List (String × Node)} {m m' : String × Node} {i : Nat}
    (hnames : members.map Prod.fst = same.map Prod.fst) (hm : members[i]? = some m)
    (hm' : same[i]? = some m') : m.1 = m'.1 := by
  have hname := congrArg (fun names : List String => names[i]?) hnames
  simpa [hm, hm'] using hname

/-- The two members have one name and describe the same, up to the order inside them. -/
structure Place.Alike (p : Place) (m m' : String × Node) : Prop where
  name : m.1 = m'.1
  reordered : Reordered (p.member m.1) m.2 m'.2

theorem Place.alike_of_members {p : Place} {members same : List (String × Node)}
    (hnames : members.map Prod.fst = same.map Prod.fst)
    (hmembers : ∀ (i : Nat) (m m' : String × Node), members[i]? = some m → same[i]? = some m' →
      Reordered (p.member m.1) m.2 m'.2) : List.Forall₂ p.Alike members same :=
  forall₂_of_getElem? (length_eq_of_names hnames) fun i m m' hm hm' =>
    ⟨name_eq_of_names hnames hm hm', hmembers i m m' hm hm'⟩

theorem Place.names_of_alike {p : Place} {members same : List (String × Node)}
    (h : List.Forall₂ p.Alike members same) : members.map Prod.fst = same.map Prod.fst := by
  induction h with
  | nil => rfl
  | cons hm _ ih => rw [List.map_cons, List.map_cons, ih, hm.name]

theorem Reordered.of_alike {p : Place} {members same members' : List (String × Node)}
    (hnodup : (members.map Prod.fst).Nodup) (halike : List.Forall₂ p.Alike members same)
    (hperm : same.Perm members') (hvalue : p = .value → same = members') :
    Reordered p (.table (namedMembers members) none) (.table (namedMembers members') none) := by
  refine .table hnodup (Place.names_of_alike halike) (fun i m m' hm hm' => ?_) hperm hvalue
  obtain ⟨hi, rfl⟩ := List.getElem?_eq_some_iff.1 hm
  obtain ⟨hi', rfl⟩ := List.getElem?_eq_some_iff.1 hm'
  exact ((List.forall₂_iff_get.1 halike).2 i hi hi').reordered

section Skipping

theorem skimItems_eq_ok {items : List Node} :
    Node.skimItems items = .ok () ↔ ∀ n ∈ items, n.skim = .ok () := by
  induction items with
  | nil => simp [Node.skimItems]
  | cons n rest ih =>
    rw [Node.skimItems, bind_eq_ok, List.forall_mem_cons, ← ih]
    constructor
    · rintro ⟨⟨⟩, hn, hrest⟩
      exact ⟨hn, hrest⟩
    · rintro ⟨hn, hrest⟩
      exact ⟨(), hn, hrest⟩

theorem skimMembers_eq_ok {members : List (String × Node)} :
    Node.skimMembers (namedMembers members) = .ok () ↔ ∀ m ∈ members, m.2.skim = .ok () := by
  induction members with
  | nil => simp [namedMembers, Node.skimMembers]
  | cons m rest ih =>
    unfold namedMembers at ih ⊢
    rw [List.map_cons, Node.skimMembers, List.forall_mem_cons, ← ih]
    change (Node.skim m.2 >>= fun _ => _) = _ ↔ _
    rw [bind_eq_ok]
    constructor
    · rintro ⟨⟨⟩, hm, hrest⟩
      exact ⟨hm, hrest⟩
    · rintro ⟨hm, hrest⟩
      exact ⟨(), hm, hrest⟩

/-- A tree that can be skipped can be skipped in another order. -/
theorem Reordered.skim {p : Place} {n n' : Node} (h : Reordered p n n') (hn : n.skim = .ok ()) :
    n'.skim = .ok () := by
  induction h with
  | scalar => exact hn
  | @list p items items' hlength hitems ih =>
    unfold Node.skim at hn ⊢
    obtain ⟨⟨⟩, hskim, -⟩ := bind_eq_ok.1 hn
    rw [skimItems_eq_ok] at hskim
    refine bind_eq_ok.2 ⟨(), skimItems_eq_ok.2 fun n' hn' => ?_, rfl⟩
    obtain ⟨i, hi⟩ := List.mem_iff_getElem?.1 hn'
    obtain ⟨n, hget⟩ : ∃ n, items[i]? = some n := by
      have hlt : i < items.length := hlength ▸ (List.getElem?_eq_some_iff.1 hi).1
      exact ⟨_, List.getElem?_eq_getElem hlt⟩
    exact ih i n n' hget hi (hskim n (List.mem_of_getElem? hget))
  | @table p members same members' hnodup hnames hmembers hperm hvalue ih =>
    unfold Node.skim at hn ⊢
    obtain ⟨⟨⟩, hskim, -⟩ := bind_eq_ok.1 hn
    rw [skimMembers_eq_ok] at hskim
    refine bind_eq_ok.2 ⟨(), skimMembers_eq_ok.2 fun m' hm' => ?_, rfl⟩
    obtain ⟨i, hi⟩ := List.mem_iff_getElem?.1 (hperm.mem_iff.2 hm')
    obtain ⟨m, hget⟩ : ∃ m, members[i]? = some m := by
      have hlength := congrArg List.length hnames
      rw [List.length_map, List.length_map] at hlength
      have hlt : i < members.length := hlength ▸ (List.getElem?_eq_some_iff.1 hi).1
      exact ⟨_, List.getElem?_eq_getElem hlt⟩
    exact ih i m m' hget hi (hskim m (List.mem_of_getElem? hget))

end Skipping

section Keeping

theorem mapM_eq_self {α : Type} {f : α → Read α} {xs : List α} (h : ∀ x ∈ xs, f x = pure x) :
    xs.mapM f = pure xs := by
  have hmap : (xs.map id).mapM f = pure (xs.map id) := mapM_eq_pure h
  rwa [List.map_id] at hmap

/-- What is found in the one is the one itself, and in the other the other itself is found. -/
def KeepsBoth {α : Type} (f : α → Read α) (x x' : α) : Prop :=
  ∀ y, Gives (f x) y → y = x ∧ f x' = pure x'

theorem eq_of_gives {α : Type} {f : α → Read α} {xs xs' ys : List α}
    (h : List.Forall₂ (KeepsBoth f) xs xs')
    (hgives : List.Forall₂ (fun x y => Gives (f x) y) xs ys) :
    ys = xs ∧ ∀ x' ∈ xs', f x' = pure x' := by
  induction h generalizing ys with
  | nil =>
    cases hgives
    exact ⟨rfl, fun _ hx => absurd hx List.not_mem_nil⟩
  | cons hfirst _ ih =>
    cases hgives with
    | cons hy hys =>
      obtain ⟨rfl, hx'⟩ := hfirst _ hy
      obtain ⟨rfl, hrest⟩ := ih hys
      exact ⟨rfl, List.forall_mem_cons.2 ⟨hx', hrest⟩⟩

variable {read : Node → Read Node}

/-- A list is kept on both sides if its items are. -/
theorem keepsBoth_list {items items' : List Node}
    (hall : List.Forall₂ (KeepsBoth read) items items') :
    KeepsBoth (Node.settleIn (some read)) (.list items none) (.list items' none) := by
  intro kept hkept
  unfold Node.settleIn at hkept ⊢
  dsimp only [Node.follow] at hkept ⊢
  rw [pure_bind] at hkept ⊢
  dsimp only at hkept ⊢
  obtain ⟨kepts, hkepts, hkept⟩ := hkept.bind
  obtain ⟨_, -, hkept⟩ := hkept.bind
  obtain rfl := gives_pure.1 hkept
  obtain ⟨rfl, hitems'⟩ := eq_of_gives hall hkepts.mapM
  refine ⟨rfl, ?_⟩
  rw [mapM_eq_self hitems']
  rfl

/-- Settling keeps two orders of an object as they are. -/
theorem keepsBoth_table (hname : ∀ name, read (nameNode name) = pure (nameNode name))
    {members same members' : List (String × Node)}
    (hall : List.Forall₂ (fun m m' => m.1 = m'.1 ∧ KeepsBoth read m.2 m'.2) members same)
    (hperm : same.Perm members') : KeepsBoth (Node.settleIn (some read))
      (.table (namedMembers members) none) (.table (namedMembers members') none) := by
  let keep : Node × Node → Read (Node × Node) := fun m => do return (← read m.1, ← read m.2)
  have hkeep (name : String) (n : Node) : keep (nameNode name, n) = (do
      return (nameNode name, ← read n)) := by
    change (read (nameNode name) >>= fun key => _) = _
    rw [hname, pure_bind]
  have hmembers : List.Forall₂ (KeepsBoth keep) (namedMembers members) (namedMembers same) := by
    refine List.forall₂_map_left_iff.2 (List.forall₂_map_right_iff.2 (hall.imp ?_))
    rintro ⟨name, n⟩ ⟨_, n'⟩ ⟨rfl, hboth⟩ kept hkept
    rw [hkeep] at hkept ⊢
    obtain ⟨m, hm, hkept⟩ := hkept.bind
    obtain rfl := gives_pure.1 hkept
    obtain ⟨rfl, hn'⟩ := hboth m hm
    exact ⟨rfl, by rw [hn', pure_bind]⟩
  intro kept hkept
  unfold Node.settleIn at hkept ⊢
  dsimp only [Node.follow] at hkept ⊢
  rw [pure_bind] at hkept ⊢
  dsimp only at hkept ⊢
  obtain ⟨kepts, hkepts, hkept⟩ := hkept.bind
  obtain ⟨_, -, hkept⟩ := hkept.bind
  obtain rfl := gives_pure.1 hkept
  obtain ⟨rfl, hsame⟩ := eq_of_gives hmembers hkepts.mapM
  have hmembers' : ∀ m ∈ namedMembers members', keep m = pure m := fun m hm =>
    hsame m ((hperm.map _).mem_iff.2 hm)
  refine ⟨rfl, ?_⟩
  change ((namedMembers members').mapM keep >>= fun _ => _) = _
  rw [mapM_eq_self hmembers']
  rfl

/-- A tree that can be kept is kept as it is, also in another order. -/
theorem Reordered.settle {p : Place} {n n' : Node} (h : Reordered p n n') (depth : Nat) :
    KeepsBoth (Node.settle depth) n n' := by
  induction h generalizing depth with
  | scalar hs =>
    intro kept hkept
    cases hs with
    | flawed => cases depth <;> exact absurd hkept not_gives_throw
    | @ofAtom a hfits =>
      have hsettled : (Node.scalar (.ofAtom a)).settle depth = pure (.scalar (.ofAtom a)) := by
        cases depth <;> rfl
      rw [hsettled, gives_pure] at hkept
      exact ⟨hkept.symm, hsettled⟩
  | list hlength _ ih =>
    cases depth with
    | zero => exact fun _ hkept => absurd hkept not_gives_throw
    | succ depth =>
      exact keepsBoth_list (forall₂_of_getElem? hlength fun i n n' hn hn' => ih i n n' hn hn' depth)
  | table _ hnames _ hperm _ ih =>
    cases depth with
    | zero => exact fun _ hkept => absurd hkept not_gives_throw
    | succ depth =>
      refine keepsBoth_table (settle_nameNode depth) ?_ hperm
      refine forall₂_of_getElem? (length_eq_of_names hnames) fun i m m' hm hm' => ?_
      exact ⟨name_eq_of_names hnames hm hm', ih i m m' hm hm' depth⟩

end Keeping

end SchemaToJava.Schema
