/-!
Finite maps that keep their entries in ascending order of the keys. The order is part of the
value, so two maps with the same keys and values are equal however they were filled.
-/
namespace SchemaToJava

open Std

/-- Keys ascend strictly, so each occurs once. -/
def Ascending {κ α : Type} [Ord κ] (entries : List (κ × α)) : Prop :=
  entries.Pairwise fun a b => compare a.1 b.1 = .lt

/-- A finite map, listed in ascending order of its keys. -/
structure Dictionary (κ α : Type) [Ord κ] where
  entries : List (κ × α)
  ascending : Ascending entries

namespace Dictionary

variable {κ α β : Type} [Ord κ]

theorem ext_entries {d e : Dictionary κ α} (h : d.entries = e.entries) : d = e := by
  cases d; cases e; cases h; rfl

instance [DecidableEq κ] [DecidableEq α] : DecidableEq (Dictionary κ α) := fun d e =>
  decidable_of_iff (d.entries = e.entries) ⟨ext_entries, fun h => h ▸ rfl⟩

def empty : Dictionary κ α := ⟨[], .nil⟩

instance : Inhabited (Dictionary κ α) := ⟨empty⟩

def isEmpty (d : Dictionary κ α) : Bool := d.entries.isEmpty

def keys (d : Dictionary κ α) : List κ := d.entries.map Prod.fst

def values (d : Dictionary κ α) : List α := d.entries.map Prod.snd

/-- Writes `value` at `key`, replacing what stood there. -/
def put (key : κ) (value : α) : List (κ × α) → List (κ × α)
  | [] => [(key, value)]
  | entry :: rest =>
    match compare key entry.1 with
    | .lt => (key, value) :: entry :: rest
    | .eq => (key, value) :: rest
    | .gt => entry :: put key value rest

def find (key : κ) (entries : List (κ × α)) : Option α :=
  (entries.find? fun entry => compare key entry.1 == .eq).map Prod.snd

def get? (d : Dictionary κ α) (key : κ) : Option α := find key d.entries

def contains (d : Dictionary κ α) (key : κ) : Bool := (d.get? key).isSome

theorem mem_put {key : κ} {value : α} {entries : List (κ × α)} {e : κ × α}
    (h : e ∈ put key value entries) : e = (key, value) ∨ e ∈ entries := by
  induction entries with
  | nil => simpa [put] using h
  | cons entry rest ih =>
    unfold put at h
    split at h
    · simpa using h
    · rcases List.mem_cons.1 h with h | h
      · exact .inl h
      · exact .inr (List.mem_cons_of_mem _ h)
    · rcases List.mem_cons.1 h with h | h
      · exact .inr (h ▸ List.mem_cons_self)
      · exact (ih h).imp_right (List.mem_cons_of_mem _)

theorem ascending_put [TransOrd κ] [LawfulEqOrd κ] (key : κ) (value : α) {entries : List (κ × α)}
    (h : Ascending entries) : Ascending (put key value entries) := by
  induction entries with
  | nil => exact List.pairwise_singleton _ _
  | cons entry rest ih =>
    obtain ⟨head, tail⟩ := List.pairwise_cons.1 h
    unfold put
    split
    · next lt =>
      refine List.pairwise_cons.2 ⟨fun e he => ?_, h⟩
      rcases List.mem_cons.1 he with rfl | he
      · exact lt
      · exact TransCmp.lt_trans lt (head e he)
    · next eq =>
      cases LawfulEqCmp.eq_of_compare eq
      exact List.pairwise_cons.2 ⟨head, tail⟩
    · next gt =>
      refine List.pairwise_cons.2 ⟨fun e he => ?_, ih tail⟩
      rcases mem_put he with rfl | he
      · exact OrientedCmp.lt_of_gt gt
      · exact head e he

def insert [TransOrd κ] [LawfulEqOrd κ] (d : Dictionary κ α) (key : κ) (value : α) :
    Dictionary κ α :=
  ⟨put key value d.entries, ascending_put key value d.ascending⟩

def ofList [TransOrd κ] [LawfulEqOrd κ] (entries : List (κ × α)) : Dictionary κ α :=
  entries.foldl (fun d entry => d.insert entry.1 entry.2) empty

def filter (d : Dictionary κ α) (keep : κ → α → Bool) : Dictionary κ α :=
  ⟨d.entries.filter fun entry => keep entry.1 entry.2, d.ascending.sublist List.filter_sublist⟩

def mapValues (d : Dictionary κ α) (f : α → β) : Dictionary κ β :=
  ⟨d.entries.map fun entry => (entry.1, f entry.2), by
    unfold Ascending
    exact List.pairwise_map.2 d.ascending⟩

/-- The map that prefers the entries of `other`. -/
def overlaid [TransOrd κ] [LawfulEqOrd κ] (d other : Dictionary κ α) : Dictionary κ α :=
  other.entries.foldl (fun d entry => d.insert entry.1 entry.2) d

end Dictionary

end SchemaToJava
