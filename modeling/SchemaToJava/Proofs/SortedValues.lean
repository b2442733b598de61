import Mathlib.Data.List.Sort
import Mathlib.Data.String.Basic
import SchemaToJava.Proofs.ReorderedTrees

/-!
Values whose objects have their members in the order of their names. Sorting changes neither which
values are the same nor what a member of an object holds, and values whose objects differ by the
order of their members alone are equal when they are sorted.
-/
namespace SchemaToJava.Json.Value

open Reading

def NoLater (a b : String × Value) : Prop := a.1 ≤ b.1

instance : DecidableRel NoLater := fun a b => inferInstanceAs (Decidable (a.1 ≤ b.1))

instance : Std.Total NoLater := ⟨fun a b => le_total a.1 b.1⟩

instance : IsTrans (String × Value) NoLater := ⟨fun _ _ _ => le_trans⟩

mutual

/-- The value with the members of all objects in the order of their names. -/
def sorted : Value → Value
  | array items => array (sortedItems items)
  | object members => object ((sortedMembers members).insertionSort NoLater)
  | null => null
  | bool b => bool b
  | number n => number n
  | string s => string s

def sortedItems : List Value → List Value
  | [] => []
  | x :: rest => x.sorted :: sortedItems rest

def sortedMembers : List (String × Value) → List (String × Value)
  | [] => []
  | (name, x) :: rest => (name, x.sorted) :: sortedMembers rest

end

theorem sortedItems_eq (items : List Value) : sortedItems items = items.map sorted := by
  induction items with
  | nil => rw [sortedItems, List.map_nil]
  | cons x rest ih => rw [sortedItems, ih, List.map_cons]

theorem sortedMembers_eq (members : List (String × Value)) :
    sortedMembers members = members.map fun m => (m.1, m.2.sorted) := by
  induction members with
  | nil => rw [sortedMembers, List.map_nil]
  | cons m rest ih => rw [sortedMembers, ih, List.map_cons]

theorem lookup_sortedMembers (members : List (String × Value)) (name : String) :
    (sortedMembers members).lookup name = (members.lookup name).map sorted := by
  induction members with
  | nil => rw [sortedMembers, List.lookup_nil, Option.map_none]
  | cons m rest ih =>
    rw [sortedMembers, List.lookup_cons, List.lookup_cons, ih]
    split <;> rfl

/-- A member goes before those of its own name, so it is still found first. -/
theorem lookup_orderedInsert (m : String × Value) (members : List (String × Value))
    (name : String) :
    (members.orderedInsert NoLater m).lookup name = (m :: members).lookup name := by
  induction members with
  | nil => rfl
  | cons other rest ih =>
    rw [List.orderedInsert_cons]
    split
    · rfl
    · next hlater =>
      have hne : m.1 ≠ other.1 := fun heq => hlater (le_of_eq heq)
      rw [List.lookup_cons, ih, List.lookup_cons, List.lookup_cons, List.lookup_cons]
      by_cases hm : name = m.1
      · simp [hm, beq_false_of_ne hne]
      · simp [beq_false_of_ne hm]

theorem lookup_insertionSort (members : List (String × Value)) (name : String) :
    (members.insertionSort NoLater).lookup name = members.lookup name := by
  induction members with
  | nil => rfl
  | cons m rest ih =>
    rw [List.insertionSort_cons, lookup_orderedInsert, List.lookup_cons, List.lookup_cons, ih]

theorem get?_sorted (v : Value) (name : String) :
    v.sorted.get? name = (v.get? name).map sorted := by
  cases v with
  | object members =>
    rw [sorted, get?, lookup_insertionSort, lookup_sortedMembers]
    rfl
  | _ => simp [sorted, get?]

theorem string?_sorted (v : Value) : v.sorted.string? = v.string? := by
  cases v <;> simp [sorted, string?]

theorem sameMembers_iff {members others : List (String × Value)} :
    sameMembers members others = true ↔
      ∀ m ∈ members, ∃ y, others.lookup m.1 = some y ∧ m.2.same y = true := by
  induction members with
  | nil => simp [sameMembers]
  | cons m rest ih =>
    rw [sameMembers, Bool.and_eq_true, ih, List.forall_mem_cons]
    cases others.lookup m.1 with
    | none => simp
    | some y => simp

mutual

/-- Sorting changes nothing about which values are the same. -/
theorem same_sorted : (v w : Value) → v.sorted.same w.sorted = v.same w
  | object members, w => by
    cases w with
    | object others =>
      have hmembers := same_of_mem_sorted members
      have hlength : ((sortedMembers members).insertionSort NoLater).length = members.length := by
        rw [List.length_insertionSort, sortedMembers_eq, List.length_map]
      have hothers : ((sortedMembers others).insertionSort NoLater).length = others.length := by
        rw [List.length_insertionSort, sortedMembers_eq, List.length_map]
      have hsame : sameMembers ((sortedMembers members).insertionSort NoLater)
          ((sortedMembers others).insertionSort NoLater) = sameMembers members others := by
        rw [Bool.eq_iff_iff, sameMembers_iff, sameMembers_iff]
        simp only [List.mem_insertionSort, lookup_insertionSort, lookup_sortedMembers]
        rw [sortedMembers_eq, List.forall_mem_map]
        refine forall₂_congr fun m hm => ?_
        cases others.lookup m.1 with
        | none => simp
        | some y => simp [hmembers m hm y]
      rw [sorted, sorted, same, same, hlength, hothers, hsame]
    | _ => simp [sorted, same]
  | array items, w => by
    cases w with
    | array others => rw [sorted, sorted, same, same, sameItems_sorted items others]
    | _ => simp [sorted, same]
  | null, w => by cases w <;> simp [sorted, same]
  | bool b, w => by cases w <;> simp [sorted, same]
  | number n, w => by cases w <;> simp [sorted, same]
  | string s, w => by cases w <;> simp [sorted, same]

theorem sameItems_sorted : (xs ys : List Value) →
    sameItems (sortedItems xs) (sortedItems ys) = sameItems xs ys
  | [], [] => by rw [sortedItems]
  | [], y :: ys => by simp [sortedItems, sameItems]
  | x :: xs, [] => by simp [sortedItems, sameItems]
  | x :: xs, y :: ys => by
    rw [sortedItems, sortedItems, sameItems, sameItems, same_sorted x y, sameItems_sorted xs ys]

theorem same_of_mem_sorted : (members : List (String × Value)) → ∀ m ∈ members, ∀ w : Value,
    m.2.sorted.same w.sorted = m.2.same w
  | [], m, hm, w => absurd hm List.not_mem_nil
  | (name, x) :: rest, m, hm, w => by
    rcases List.mem_cons.1 hm with rfl | hm
    · exact same_sorted x w
    · exact same_of_mem_sorted rest m hm w

end

/-- Members with distinct names are sorted to one list in whichever order they stand. -/
theorem insertionSort_eq_of_perm {members others : List (String × Value)}
    (hnodup : (members.map Prod.fst).Nodup) (hperm : members.Perm others) :
    members.insertionSort NoLater = others.insertionSort NoLater := by
  have hsorted := List.perm_insertionSort NoLater members
  have hothers := List.perm_insertionSort NoLater others
  refine List.Perm.eq_of_pairwise ?_ (List.pairwise_insertionSort NoLater members)
    (List.pairwise_insertionSort NoLater others) ((hsorted.trans hperm).trans hothers.symm)
  intro a b ha hb hab hba
  have hname : a.1 = b.1 := le_antisymm hab hba
  exact List.inj_on_of_nodup_map hnodup (hsorted.mem_iff.1 ha)
    (hperm.mem_iff.2 (hothers.mem_iff.1 hb)) hname

/-- Objects whose members differ by their order, and inside by that of their own members. -/
theorem sorted_object_eq {members same others : List (String × Value)}
    (hnodup : (members.map Prod.fst).Nodup)
    (hsame : sortedMembers members = sortedMembers same) (hperm : same.Perm others) :
    (object members).sorted = (object others).sorted := by
  have hsorted : (sortedMembers same).Perm (sortedMembers others) := by
    rw [sortedMembers_eq, sortedMembers_eq]
    exact hperm.map _
  have hnames : ((sortedMembers same).map Prod.fst).Nodup := by
    rw [← hsame, sortedMembers_eq, List.map_map]
    exact hnodup
  rw [sorted, sorted, hsame, insertionSort_eq_of_perm hnames hsorted]

/-- No object of the value has a name twice, and the numbers are within their range. -/
inductive IsTidy : Value → Prop
  | null : IsTidy .null
  | bool {b : Bool} : IsTidy (.bool b)
  | number {n : Number} : n.Fits → IsTidy (.number n)
  | string {s : String} : IsTidy (.string s)
  | array {items : List Value} : (∀ x ∈ items, IsTidy x) → IsTidy (.array items)
  | object {members : List (String × Value)} : (members.map Prod.fst).Nodup →
      (∀ m ∈ members, IsTidy m.2) → IsTidy (.object members)

end SchemaToJava.Json.Value

namespace SchemaToJava.Schema

open Reading Json Json.Value

def memberTrees (members : List (String × Value)) : List (String × Node) :=
  members.map fun m => (m.1, Node.ofValue m.2)

theorem ofValue_object (members : List (String × Value)) :
    Node.ofValue (.object members) = .table (namedMembers (memberTrees members)) none := by
  rw [Node.ofValue, ofMembers_eq, namedMembers, memberTrees, List.map_map]
  rfl

theorem insertionSort_sortedMembers (members : List (String × Value)) :
    (sortedMembers members).insertionSort NoLater =
      (members.insertionSort NoLater).map fun m => (m.1, m.2.sorted) := by
  let sort (m : String × Value) : String × Value := (m.1, m.2.sorted)
  have hmap := List.map_insertionSort NoLater NoLater sort members fun _ _ _ _ => Iff.rfl
  rw [sortedMembers_eq]
  exact hmap.symm

/-- Arrays whose items are made of the same ones. -/
theorem reordered_array {f g : Value → Value} {items : List Value}
    (h : ∀ x ∈ items, Reordered .other (Node.ofValue (f x)) (Node.ofValue (g x))) :
    Reordered .other (Node.ofValue (.array (items.map f)))
      (Node.ofValue (.array (items.map g))) := by
  rw [Node.ofValue, Node.ofValue, ofItems_eq, ofItems_eq]
  refine .list (by simp) fun i n n' hn hn' => ?_
  simp only [List.getElem?_map, Option.map_eq_some_iff] at hn hn'
  obtain ⟨_, ⟨x, hx, rfl⟩, rfl⟩ := hn
  obtain ⟨_, ⟨y, hy, rfl⟩, rfl⟩ := hn'
  obtain rfl := Option.some.inj (hx.symm.trans hy)
  exact h x (List.mem_of_getElem? hx)

/-- Objects with members that are alike, which may stand in another order. -/
theorem reordered_object {p : Place} {members same others : List (String × Value)}
    (hnodup : (members.map Prod.fst).Nodup)
    (halike : List.Forall₂ (fun m m' => p.Alike (m.1, Node.ofValue m.2) (m'.1, Node.ofValue m'.2))
      members same)
    (hperm : same.Perm others) (hvalue : p = .value → same = others) :
    Reordered p (Node.ofValue (.object members)) (Node.ofValue (.object others)) := by
  rw [ofValue_object, ofValue_object]
  have hnodup' : ((memberTrees members).map Prod.fst).Nodup := by
    rw [memberTrees, List.map_map]
    exact hnodup
  have htrees : List.Forall₂ p.Alike (memberTrees members) (memberTrees same) :=
    List.forall₂_map_left_iff.2 (List.forall₂_map_right_iff.2 halike)
  exact .of_alike hnodup' htrees (hperm.map _) fun hp => congrArg memberTrees (hvalue hp)

/-- Objects whose members are made of the same ones. -/
theorem reordered_object_map {f g : Value → Value} {members others : List (String × Value)}
    (hnodup : (members.map Prod.fst).Nodup) (hperm : members.Perm others)
    (h : ∀ m ∈ members, Reordered .other (Node.ofValue (f m.2)) (Node.ofValue (g m.2))) :
    Reordered .other (Node.ofValue (.object (members.map fun m => (m.1, f m.2))))
      (Node.ofValue (.object (others.map fun m => (m.1, g m.2)))) := by
  have hnodup' : ((members.map fun m => (m.1, f m.2)).map Prod.fst).Nodup := by
    rw [List.map_map]
    exact hnodup
  refine reordered_object hnodup' ?_ (hperm.map _) fun hvalue => by cases hvalue
  rw [List.forall₂_map_left_iff, List.forall₂_map_right_iff, List.forall₂_same]
  intro m hm
  exact ⟨rfl, h m hm⟩

/-- The tree of a value and that of the sorted value differ by the order of members alone. -/
theorem reordered_sorted {v : Value} (h : v.IsTidy) :
    Reordered .other (Node.ofValue v) (Node.ofValue v.sorted) ∧
      Reordered .other (Node.ofValue v.sorted) (Node.ofValue v) := by
  induction h with
  | null | bool | string =>
    unfold Value.sorted Node.ofValue
    exact ⟨.scalar (.ofAtom trivial), .scalar (.ofAtom trivial)⟩
  | number hn =>
    unfold Value.sorted Node.ofValue
    exact ⟨.scalar (.ofAtom hn), .scalar (.ofAtom hn)⟩
  | @array items _ ih =>
    have hitems : items.map id = items := List.map_id items
    rw [Value.sorted, sortedItems_eq]
    constructor
    · have h := reordered_array (f := id) fun x hx => (ih x hx).1
      rwa [hitems] at h
    · have h := reordered_array (g := id) fun x hx => (ih x hx).2
      rwa [hitems] at h
  | @object members hnodup _ ih =>
    have hmembers : (members.map fun m => (m.1, id m.2)) = members := List.map_id members
    have hperm := List.perm_insertionSort NoLater members
    rw [Value.sorted, insertionSort_sortedMembers]
    constructor
    · have h := reordered_object_map (f := id) hnodup hperm.symm fun m hm => (ih m hm).1
      rwa [hmembers] at h
    · have hsorted : ((members.insertionSort NoLater).map Prod.fst).Nodup :=
        (hperm.map _).nodup_iff.2 hnodup
      have h := reordered_object_map (g := id) hsorted hperm fun m hm =>
        (ih m (hperm.mem_iff.1 hm)).2
      rwa [hmembers] at h

theorem isTidy_of_fitsIn_zero {v : Value} (h : v.FitsIn 0) : v.IsTidy := by
  cases h with
  | null => exact .null
  | bool => exact .bool
  | number hn => exact .number hn
  | string => exact .string

/-- Values that have been read are tidy. -/
theorem isTidy_of_gives {depth : Nat} {n : Node} {v : Value} (hn : n.IsPlain)
    (h : Gives (n.toValue depth) v) : v.IsTidy := by
  induction depth generalizing n v with
  | zero => exact isTidy_of_fitsIn_zero ((recovers_toValue 0).1 n v hn h).fits
  | succ depth ih =>
    cases hn with
    | @scalar s hs =>
      -- a scalar is read alike in every depth
      have hscalar : Gives ((Node.scalar s).toValue 0) v := h
      exact isTidy_of_fitsIn_zero ((recovers_toValue 0).1 _ v (.scalar hs) hscalar).fits
    | @list items brokenOff typed positional hitems =>
      cases typed with
      | true => exact absurd h not_gives_throw
      | false =>
        unfold Node.toValue Node.valueIn at h
        dsimp only [Node.follow] at h
        rw [pure_bind] at h
        obtain ⟨xs, hxs, h⟩ := h.bind
        obtain ⟨_, -, h⟩ := h.bind
        obtain rfl := gives_pure.1 h
        refine .array fun x hx => ?_
        obtain ⟨m, hm, hread⟩ := Outcome.exists_left_of_mem hxs.mapM hx
        exact ih (hitems m hm) hread
    | @table members brokenOff typed hkeys hvalues =>
      cases typed with
      | true => exact absurd h not_gives_throw
      | false =>
        unfold Node.toValue Node.valueIn at h
        dsimp only [Node.follow] at h
        rw [pure_bind] at h
        obtain ⟨xs, hxs, h⟩ := h.bind
        obtain ⟨_, -, h⟩ := h.bind
        obtain rfl := gives_pure.1 h
        obtain ⟨others, heq, hnames, hmem⟩ := exists_ofMembers xs
        rw [heq]
        refine .object hnames fun m hm => ?_
        obtain ⟨entry, hentry, hread⟩ := Outcome.exists_left_of_mem hxs.mapM (hmem m hm)
        obtain ⟨name, -, hread⟩ := hread.bind
        obtain ⟨x, hx, hread⟩ := hread.bind
        obtain rfl := gives_pure.1 hread
        exact ih (hvalues entry hentry) hx
    | broken => exact absurd h not_gives_throw

end SchemaToJava.Schema
