import Mathlib.Data.List.Induction
import Mathlib.Data.List.Nodup
import Mathlib.Data.List.Perm.Basic
import SchemaToJava.Dictionary

/-!
Laws of finite maps. The value found at a key is the one in the only entry of that key, insertion
at a new key adds one entry, and a map is determined by its entries in any order.
-/
namespace SchemaToJava.Dictionary

open Std

section MapValues

variable {κ α β : Type} [Ord κ]

@[simp] theorem keys_mapValues (d : Dictionary κ α) (f : α → β) :
    (d.mapValues f).keys = d.keys := by
  simp [keys, mapValues]

theorem get?_mapValues (d : Dictionary κ α) (f : α → β) (key : κ) :
    (d.mapValues f).get? key = (d.get? key).map f := by
  simp only [get?, find, mapValues, List.find?_map, Option.map_map]
  rfl

theorem contains_mapValues (d : Dictionary κ α) (f : α → β) (key : κ) :
    (d.mapValues f).contains key = d.contains key := by
  rw [contains, get?_mapValues, Option.isSome_map, contains]

theorem mapValues_eq_self {d : Dictionary κ α} {f : α → α} (h : ∀ x, f x = x) :
    d.mapValues f = d := by
  apply ext_entries
  have hid : (fun entry : κ × α => (entry.1, f entry.2)) = id := funext fun entry => by rw [h]; rfl
  simp [mapValues, hid]

theorem mapValues_mapValues {γ : Type} (d : Dictionary κ α) (f : α → β) (g : β → γ) :
    (d.mapValues f).mapValues g = d.mapValues fun x => g (f x) := by
  apply ext_entries
  simp [mapValues]

theorem values_mapValues (d : Dictionary κ α) (f : α → β) :
    (d.mapValues f).values = d.values.map f := by
  simp [values, mapValues]

theorem mapValues_filter (d : Dictionary κ α) (f : α → β) (keep : κ → Bool) :
    (d.filter fun key _ => keep key).mapValues f =
      (d.mapValues f).filter fun key _ => keep key := by
  apply ext_entries
  simp only [mapValues, filter, List.filter_map]
  rfl

theorem map_put (f : α → β) (key : κ) (value : α) (entries : List (κ × α)) :
    (put key value entries).map (fun entry => (entry.1, f entry.2)) =
      put key (f value) (entries.map fun entry => (entry.1, f entry.2)) := by
  induction entries with
  | nil => rfl
  | cons entry rest ih =>
    rw [List.map_cons, put, put]
    cases compare key entry.1 with
    | lt => rfl
    | eq => rfl
    | gt => exact congrArg _ ih

end MapValues

variable {κ α : Type} [Ord κ] [TransOrd κ]

theorem nodup_keys (d : Dictionary κ α) : d.keys.Nodup := by
  refine List.pairwise_map.2 (d.ascending.imp ?_)
  intro a b hab heq
  rw [heq, compare_self] at hab
  cases hab

/-- Maps with the same entries are equal, in whichever order the entries are listed. -/
theorem ext_perm {d e : Dictionary κ α} (h : d.entries.Perm e.entries) : d = e := by
  apply ext_entries
  refine h.eq_of_pairwise ?_ d.ascending e.ascending
  intro a b _ _ hab hba
  have hgt : compare a.1 b.1 = .gt := OrientedCmp.gt_of_lt hba
  rw [hab] at hgt
  cases hgt

variable [LawfulEqOrd κ]

/-- A lookup finds exactly the entries, for no key occurs twice. -/
theorem get?_eq_some_iff {d : Dictionary κ α} {key : κ} {value : α} :
    d.get? key = some value ↔ (key, value) ∈ d.entries := by
  have hkeys := List.inj_on_of_nodup_map d.nodup_keys
  simp only [get?, find, Option.map_eq_some_iff]
  constructor
  · rintro ⟨entry, hfind, rfl⟩
    have hkey : key = entry.1 := LawfulEqOrd.eq_of_compare (by simpa using List.find?_some hfind)
    exact hkey ▸ List.mem_of_find?_eq_some hfind
  · intro hmem
    cases hfind : d.entries.find? fun entry => compare key entry.1 == .eq with
    | none =>
      have hne := List.find?_eq_none.1 hfind _ hmem
      simp at hne
    | some entry =>
      have hkey : key = entry.1 := LawfulEqOrd.eq_of_compare (by simpa using List.find?_some hfind)
      have heq := hkeys (List.mem_of_find?_eq_some hfind) hmem hkey.symm
      exact ⟨entry, rfl, congrArg Prod.snd heq⟩

theorem mem_keys_iff {d : Dictionary κ α} {key : κ} :
    key ∈ d.keys ↔ ∃ value, d.get? key = some value := by
  simp [keys, get?_eq_some_iff]

theorem contains_iff {d : Dictionary κ α} {key : κ} : d.contains key = true ↔ key ∈ d.keys := by
  rw [mem_keys_iff, contains, Option.isSome_iff_exists]

theorem contains_eq_false_iff {d : Dictionary κ α} {key : κ} :
    d.contains key = false ↔ key ∉ d.keys := by
  rw [← contains_iff, Bool.not_eq_true]

theorem mem_values_iff {d : Dictionary κ α} {value : α} :
    value ∈ d.values ↔ ∃ key, d.get? key = some value := by
  simp [values, get?_eq_some_iff]

omit [TransOrd κ] in
/-- Writing at a new key adds an entry and changes no other. -/
theorem put_perm {key : κ} {value : α} {entries : List (κ × α)}
    (h : key ∉ entries.map Prod.fst) : (put key value entries).Perm ((key, value) :: entries) := by
  induction entries with
  | nil => exact .refl _
  | cons entry rest ih =>
    simp only [List.map_cons, List.mem_cons, not_or] at h
    unfold put
    split
    · exact .refl _
    · next heq => exact absurd (LawfulEqOrd.eq_of_compare heq) h.1
    · exact ((ih h.2).cons entry).trans (.swap _ _ rest)

theorem insert_perm {d : Dictionary κ α} {key : κ} (h : d.contains key = false) (value : α) :
    (d.insert key value).entries.Perm ((key, value) :: d.entries) :=
  put_perm (contains_eq_false_iff.1 h)

omit [TransOrd κ] in
/-- Writing a key changes what is found at it and nothing else. -/
theorem find_put (key other : κ) (value : α) (entries : List (κ × α)) :
    find other (put key value entries) =
      if compare other key = .eq then some value else find other entries := by
  induction entries with
  | nil => by_cases h : compare other key = .eq <;> simp [put, find, h]
  | cons entry rest ih =>
    unfold put
    split
    · by_cases h : compare other key = .eq <;> simp [find, h]
    · next heq =>
      cases LawfulEqOrd.eq_of_compare heq
      by_cases h : compare other entry.1 = .eq <;> simp [find, h]
    · next hgt =>
      by_cases h : compare other entry.1 = .eq
      · have hne : compare other key ≠ .eq := by
          intro heq
          rw [← LawfulEqOrd.eq_of_compare heq, LawfulEqOrd.eq_of_compare h, compare_self] at hgt
          cases hgt
        simp [find, h, hne]
      · simpa [find, h] using ih

theorem get?_insert (d : Dictionary κ α) (key other : κ) (value : α) :
    (d.insert key value).get? other =
      if compare other key = .eq then some value else d.get? other :=
  find_put key other value d.entries

theorem get?_insert_self (d : Dictionary κ α) (key : κ) (value : α) :
    (d.insert key value).get? key = some value := by
  rw [get?_insert, if_pos compare_self]

theorem get?_insert_of_ne (d : Dictionary κ α) {key other : κ} (h : other ≠ key) (value : α) :
    (d.insert key value).get? other = d.get? other := by
  rw [get?_insert, if_neg fun heq => h (LawfulEqOrd.eq_of_compare heq)]

theorem mapValues_insert {β : Type} (d : Dictionary κ α) (f : α → β) (key : κ) (value : α) :
    (d.insert key value).mapValues f = (d.mapValues f).insert key (f value) :=
  ext_entries (map_put f key value d.entries)

theorem mapValues_ofList {β : Type} (f : α → β) (entries : List (κ × α)) :
    (ofList entries).mapValues f = ofList (entries.map fun entry => (entry.1, f entry.2)) := by
  induction entries using List.reverseRecOn with
  | nil => rfl
  | append_singleton entries entry ih =>
    unfold ofList at ih ⊢
    rw [List.map_append, List.foldl_append, List.foldl_append, ← ih]
    exact mapValues_insert _ f entry.1 entry.2

theorem mem_keys_insert {d : Dictionary κ α} {key other : κ} {value : α} :
    other ∈ (d.insert key value).keys ↔ other = key ∨ other ∈ d.keys := by
  by_cases h : other = key
  · subst h
    simp [mem_keys_iff, get?_insert_self]
  · simp [mem_keys_iff, get?_insert_of_ne d h, h]

private theorem mem_keys_insertAll (entries : List (κ × α)) (d : Dictionary κ α) (key : κ) :
    key ∈ (entries.foldl (fun d entry => d.insert entry.1 entry.2) d).keys ↔
      key ∈ entries.map Prod.fst ∨ key ∈ d.keys := by
  induction entries generalizing d with
  | nil => simp
  | cons entry rest ih =>
    rw [List.foldl_cons, ih, mem_keys_insert, List.map_cons, List.mem_cons]
    tauto

theorem mem_keys_ofList {entries : List (κ × α)} {key : κ} :
    key ∈ (ofList entries).keys ↔ key ∈ entries.map Prod.fst := by
  rw [ofList, mem_keys_insertAll]
  simp [empty, keys]

private theorem insertAll_perm (entries : List (κ × α)) (d : Dictionary κ α)
    (h : (entries.map Prod.fst ++ d.keys).Nodup) :
    (entries.foldl (fun d entry => d.insert entry.1 entry.2) d).entries.Perm
      (entries ++ d.entries) := by
  induction entries generalizing d with
  | nil => exact .refl _
  | cons entry rest ih =>
    have hnew : d.contains entry.1 = false := by
      rw [contains_eq_false_iff]
      intro hmem
      exact (List.nodup_append.1 h).2.2 entry.1 (by simp) entry.1 hmem rfl
    have hinsert := insert_perm hnew entry.2
    have hmiddle : (rest.map Prod.fst ++ (d.insert entry.1 entry.2).keys).Perm
        ((entry :: rest).map Prod.fst ++ d.keys) :=
      ((hinsert.map Prod.fst).append_left _).trans List.perm_middle
    refine (ih _ (hmiddle.nodup_iff.2 h)).trans ?_
    exact (hinsert.append_left rest).trans List.perm_middle

omit [TransOrd κ] [LawfulEqOrd κ] in
/-- Whether a list ascends is a matter of its keys. -/
theorem ascending_iff {entries : List (κ × α)} :
    Ascending entries ↔ (entries.map Prod.fst).Pairwise fun a b => compare a b = .lt := by
  rw [List.pairwise_map, Ascending]

/-- A map filled from a list in ascending order has the list as its entries. -/
theorem entries_ofList {entries : List (κ × α)} (h : Ascending entries) :
    (ofList entries).entries = entries := by
  have hnodup : (entries.map Prod.fst).Nodup := nodup_keys ⟨entries, h⟩
  have hall : (ofList entries).entries.Perm (entries ++ []) :=
    insertAll_perm entries empty (by simpa [keys, empty] using hnodup)
  rw [List.append_nil] at hall
  have heq : ofList entries = ⟨entries, h⟩ := ext_perm hall
  rw [heq]

/-- A map filled with entries of distinct keys does not depend on their order. -/
theorem ofList_perm {entries others : List (κ × α)} (hnodup : (entries.map Prod.fst).Nodup)
    (hperm : entries.Perm others) : ofList entries = ofList others := by
  have hall (entries : List (κ × α)) (hnodup : (entries.map Prod.fst).Nodup) :
      (ofList entries).entries.Perm entries := by
    have hfilled : (ofList entries).entries.Perm (entries ++ []) :=
      insertAll_perm entries empty (by simpa [keys, empty] using hnodup)
    rwa [List.append_nil] at hfilled
  have hothers : (others.map Prod.fst).Nodup := (hperm.map _).nodup_iff.1 hnodup
  exact ext_perm (((hall entries hnodup).trans hperm).trans (hall others hothers).symm)

/-- Values gathered in lists by their keys: a list is kept at each key that has a value, and it
holds the values of that key. -/
theorem gathered_spec (entries : List (κ × α)) :
    let d := entries.foldl (fun (d : Dictionary κ (List α)) entry =>
      d.insert entry.1 ((d.get? entry.1).getD [] ++ [entry.2])) .empty
    (∀ key values, (key, values) ∈ d.entries → values ≠ []) ∧
      ∀ key value, (key, value) ∈ entries ↔
        ∃ values, (key, values) ∈ d.entries ∧ value ∈ values := by
  intro d
  simp only [← get?_eq_some_iff]
  induction entries using List.reverseRecOn with
  | nil => simp [d, empty, get?, find]
  | append_singleton entries entry ih =>
    obtain ⟨hne, hmem⟩ := ih
    unfold d
    rw [List.foldl_append]
    generalize entries.foldl _ _ = before at hne hmem
    constructor
    · intro key values hget
      by_cases hkey : key = entry.1
      · subst hkey
        rw [List.foldl_cons, List.foldl_nil, get?_insert_self] at hget
        cases hget
        simp
      · rw [List.foldl_cons, List.foldl_nil, get?_insert_of_ne _ hkey] at hget
        exact hne key values hget
    · intro key value
      rw [List.mem_append, hmem, List.foldl_cons, List.foldl_nil]
      by_cases hkey : key = entry.1
      · subst hkey
        rw [get?_insert_self]
        cases hget : before.get? entry.1 <;> simp [Prod.ext_iff, eq_comm]
      · have hother : (key, value) ∉ [entry] := fun h =>
          hkey (congrArg Prod.fst (List.mem_singleton.1 h))
        rw [get?_insert_of_ne _ hkey]
        simp only [hother, or_false]

theorem get?_filter (d : Dictionary κ α) (keep : κ → α → Bool) (key : κ) :
    (d.filter keep).get? key = (d.get? key).filter (keep key) := by
  ext value
  rw [get?_eq_some_iff, filter, List.mem_filter, Option.filter_eq_some_iff, get?_eq_some_iff]

theorem mem_keys_filter {d : Dictionary κ α} {keep : κ → Bool} {key : κ} :
    key ∈ (d.filter fun key _ => keep key).keys ↔ key ∈ d.keys ∧ keep key = true := by
  simp only [mem_keys_iff, get?_filter, Option.filter_eq_some_iff]
  constructor
  · rintro ⟨value, hvalue, hkeep⟩
    exact ⟨⟨value, hvalue⟩, hkeep⟩
  · rintro ⟨⟨value, hvalue⟩, hkeep⟩
    exact ⟨value, hvalue, hkeep⟩

/-- The values that have been gathered at a key, in their order. -/
theorem getD_gathered (entries : List (κ × α)) (key : κ) :
    ((entries.foldl (fun (d : Dictionary κ (List α)) entry =>
      d.insert entry.1 ((d.get? entry.1).getD [] ++ [entry.2])) .empty).get? key).getD [] =
        (entries.filter fun entry => compare key entry.1 == .eq).map Prod.snd := by
  induction entries using List.reverseRecOn with
  | nil => rfl
  | append_singleton entries entry ih =>
    rw [List.foldl_append, List.filter_append, List.map_append, ← ih]
    generalize entries.foldl _ _ = before
    rw [List.foldl_cons, List.foldl_nil, get?_insert]
    by_cases hkey : compare key entry.1 = .eq
    · cases LawfulEqOrd.eq_of_compare hkey
      simp
    · simp [hkey]

/-- Values changed before they are gathered are changed in the lists. -/
theorem mapValues_gathered {β : Type} (f : α → β) (entries : List (κ × α)) :
    (entries.foldl (fun (d : Dictionary κ (List α)) entry =>
      d.insert entry.1 ((d.get? entry.1).getD [] ++ [entry.2])) .empty).mapValues (List.map f) =
        (entries.map fun entry => (entry.1, f entry.2)).foldl
          (fun (d : Dictionary κ (List β)) entry =>
            d.insert entry.1 ((d.get? entry.1).getD [] ++ [entry.2])) .empty := by
  induction entries using List.reverseRecOn with
  | nil => rfl
  | append_singleton entries entry ih =>
    rw [List.map_append, List.foldl_append, List.foldl_append, ← ih]
    generalize entries.foldl _ _ = before
    rw [List.foldl_cons, List.foldl_nil, List.map_cons, List.map_nil, List.foldl_cons,
      List.foldl_nil, mapValues_insert, get?_mapValues, List.map_append]
    cases before.get? entry.1 with
    | none => rfl
    | some values => rfl

/-- What is listed at a key is what has been gathered there, when that is not nothing. -/
theorem mem_gathered_iff {entries : List (κ × α)} {key : κ} {values : List α} :
    (key, values) ∈ (entries.foldl (fun (d : Dictionary κ (List α)) entry =>
      d.insert entry.1 ((d.get? entry.1).getD [] ++ [entry.2])) .empty).entries ↔
        values ≠ [] ∧
          (entries.filter fun entry => compare key entry.1 == .eq).map Prod.snd = values := by
  rw [← getD_gathered, ← get?_eq_some_iff]
  have hne := (gathered_spec entries).1
  simp only [← get?_eq_some_iff] at hne
  generalize entries.foldl _ _ = d at hne
  cases hget : d.get? key with
  | none => simp [eq_comm]
  | some found =>
    have hfound := hne key found hget
    simp only [Option.some.injEq, Option.getD_some]
    constructor
    · rintro rfl
      exact ⟨hfound, rfl⟩
    · exact And.right

end SchemaToJava.Dictionary
