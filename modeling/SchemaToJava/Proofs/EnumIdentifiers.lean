import Mathlib.Data.List.Nodup
import Mathlib.Data.List.Range
import Mathlib.Data.List.Perm.Subperm
import SchemaToJava.Java.EnumClass

/-!
The identifiers of the elements of an enum. An identifier that is taken gets a number, and of any
row of numbers that is longer than the list of taken identifiers one is free. So the search for an
identifier ends, no two elements have the same identifier, and those of the elements before are not
looked at again.
-/
namespace SchemaToJava.Java.EnumClass

open Package

theorem append_toString_inj {base : String} {n k : Nat}
    (h : base ++ toString n = base ++ toString k) : n = k := by
  have hdigits : n.repr = k.repr := (String.append_right_inj base).1 h
  have hlists := congrArg String.toList hdigits
  simp only [Nat.toList_repr] at hlists
  have hread := congrArg (fun digits => Nat.ofDigitChars 10 digits 0) hlists
  simpa using hread

theorem append_toString_ne (base : String) (n : Nat) : base ++ toString n ≠ base := by
  intro h
  have hlength := congrArg String.length h
  have hpos : 0 < (toString n).length := Nat.length_repr_pos
  rw [String.length_append] at hlength
  omega

/-- The search passes over taken identifiers only, and stops at a free one unless its tries are
used up. -/
theorem firstFree_spec (used : List String) (base : String) (tries n : Nat) :
    ∃ k, n ≤ k ∧ k ≤ n + tries ∧ firstFree used base tries n = base ++ toString k ∧
      (∀ j, n ≤ j → j < k → base ++ toString j ∈ used) ∧
      (k < n + tries → base ++ toString k ∉ used) := by
  induction tries generalizing n with
  | zero => exact ⟨n, le_rfl, le_rfl, rfl, fun j hj hlt => by omega, fun h => by omega⟩
  | succ tries ih =>
    by_cases htaken : base ++ toString n ∈ used
    · obtain ⟨k, hle, hbound, hfound, hpassed, hfree⟩ := ih (n + 1)
      refine ⟨k, by omega, by omega, ?_, ?_, fun h => hfree (by omega)⟩
      · rw [firstFree, if_pos (List.contains_iff_mem.2 htaken), hfound]
      · intro j hj hlt
        rcases Nat.eq_or_lt_of_le hj with rfl | hj
        · exact htaken
        · exact hpassed j hj hlt
    · refine ⟨n, le_rfl, by omega, ?_, fun j hj hlt => by omega, fun _ => htaken⟩
      rw [firstFree, if_neg (by simpa using htaken)]

/-- Where the wanted identifier is taken, the first free number is found: of more candidates than
there are taken identifiers one is free. -/
theorem exists_number {used : List String} {base : String} (hbase : base ∈ used) :
    ∃ k, 2 ≤ k ∧ k ≤ used.length + 1 ∧ freeIdentifier used base = base ++ toString k ∧
      (∀ j, 2 ≤ j → j < k → base ++ toString j ∈ used) ∧ base ++ toString k ∉ used := by
  obtain ⟨k, hle, hbound, hfound, hpassed, hfree⟩ := firstFree_spec used base used.length 2
  have hlast : k < 2 + used.length := by
    by_contra hlast
    -- else the wanted identifier and all the numbered ones before the last are taken
    let candidates := base :: (List.range' 2 used.length).map fun j => base ++ toString j
    have hnodup : candidates.Nodup := by
      refine List.nodup_cons.2 ⟨?_, ?_⟩
      · intro hmem
        obtain ⟨j, -, hj⟩ := List.mem_map.1 hmem
        exact append_toString_ne base j hj
      · have hrange : (List.range' 2 used.length).Nodup := List.nodup_range'
        exact hrange.map fun _ _ => append_toString_inj
    have hsubset : candidates ⊆ used := by
      intro candidate hmem
      rcases List.mem_cons.1 hmem with rfl | hmem
      · exact hbase
      · obtain ⟨j, hj, rfl⟩ := List.mem_map.1 hmem
        have hrange := List.mem_range'_1.1 hj
        exact hpassed j hrange.1 (by omega)
    have hlength := (List.subperm_of_subset hnodup hsubset).length_le
    simp only [candidates, List.length_cons, List.length_map, List.length_range'] at hlength
    omega
  refine ⟨k, hle, by omega, ?_, hpassed, hfree hlast⟩
  rw [freeIdentifier, if_pos (List.contains_iff_mem.2 hbase), hfound]

theorem freeIdentifier_eq_self {used : List String} {base : String} (hbase : base ∉ used) :
    freeIdentifier used base = base := by
  rw [freeIdentifier, if_neg (by simpa using hbase)]

theorem freeIdentifier_notMem (used : List String) (base : String) :
    freeIdentifier used base ∉ used := by
  by_cases hbase : base ∈ used
  · obtain ⟨k, -, -, hfound, -, hfree⟩ := exists_number hbase
    exact hfound ▸ hfree
  · exact (freeIdentifier_eq_self hbase).symm ▸ hbase

/-- The search for an identifier without a bound on its tries: the candidate is given up as long as
it is taken, and the next one ends in the number. -/
inductive Searches (used : List String) (base : String) :
    (candidate : String) → (number retries : Nat) → (found : String) → Prop
  | free {candidate : String} {n : Nat} : candidate ∉ used →
      Searches used base candidate n 0 candidate
  | taken {candidate found : String} {n retries : Nat} : candidate ∈ used →
      Searches used base (base ++ toString n) (n + 1) retries found →
      Searches used base candidate n (retries + 1) found

section Searches

variable {used : List String} {base candidate found : String} {n retries : Nat}

/-- A search has one end. -/
theorem Searches.unique (h : Searches used base candidate n retries found) {found' : String}
    {retries' : Nat} (h' : Searches used base candidate n retries' found') :
    retries' = retries ∧ found' = found := by
  induction h generalizing retries' with
  | free hfree =>
    cases h' with
    | free => exact ⟨rfl, rfl⟩
    | taken htaken => exact absurd htaken hfree
  | taken htaken _ ih =>
    cases h' with
    | free hfree => exact absurd htaken hfree
    | taken _ hrest =>
      obtain ⟨rfl, rfl⟩ := ih hrest
      exact ⟨rfl, rfl⟩

/-- A search passes over the taken numbers up to a free one. -/
theorem searches_numbers {k : Nat} (hle : n ≤ k)
    (hpassed : ∀ j, n ≤ j → j < k → base ++ toString j ∈ used) (hfree : base ++ toString k ∉ used) :
    Searches used base (base ++ toString n) (n + 1) (k - n) (base ++ toString k) := by
  obtain ⟨d, rfl⟩ := Nat.exists_eq_add_of_le hle
  rw [Nat.add_sub_cancel_left]
  induction d generalizing n with
  | zero => exact .free hfree
  | succ d ih =>
    have hsum : n + 1 + d = n + (d + 1) := by omega
    refine .taken (hpassed n le_rfl (by omega)) ?_
    rw [← hsum] at hpassed hfree ⊢
    exact ih (Nat.le_add_right _ _) (fun j hj hlt => hpassed j (by omega) hlt) hfree

/-- The search ends with the free identifier, after at most one retry for each taken one. -/
theorem searches_freeIdentifier (used : List String) (base : String) :
    ∃ retries ≤ used.length, Searches used base base 2 retries (freeIdentifier used base) := by
  by_cases hbase : base ∈ used
  · obtain ⟨k, hle, hbound, hfound, hpassed, hfree⟩ := exists_number hbase
    refine ⟨k - 2 + 1, by omega, .taken hbase ?_⟩
    rw [hfound]
    exact searches_numbers hle hpassed hfree
  · refine ⟨0, Nat.zero_le _, ?_⟩
    rw [freeIdentifier_eq_self hbase]
    exact .free hbase

end Searches

/-- The elements get these identifiers when one is searched for each of them, beside those that are
taken and those of the elements before it. No search takes more retries than there are taken
identifiers. -/
inductive Names : (used : List String) → List EnumElement → List String → Prop
  | nil {used : List String} : Names used [] []
  | cons {used : List String} {e : EnumElement} {rest : List EnumElement} {ident : String}
      {idents : List String} {retries : Nat} : retries ≤ used.length →
      Searches used (wantedIdentifier e) (wantedIdentifier e) 2 retries ident →
      Names (ident :: used) rest idents → Names used (e :: rest) (ident :: idents)

/-- The search for all identifiers ends, and in one way. -/
theorem names_iff {used : List String} {elements : List EnumElement} {idents : List String} :
    Names used elements idents ↔ idents = identifiersBeside used elements := by
  constructor
  · intro h
    induction h with
    | nil => rfl
    | @cons used e rest ident idents retries _ hsearch _ ih =>
      obtain ⟨_, -, hfree⟩ := searches_freeIdentifier used (wantedIdentifier e)
      obtain ⟨-, rfl⟩ := hfree.unique hsearch
      rw [identifiersBeside, ih]
  · rintro rfl
    induction elements generalizing used with
    | nil => exact .nil
    | cons e rest ih =>
      obtain ⟨retries, hbound, hsearch⟩ := searches_freeIdentifier used (wantedIdentifier e)
      exact .cons hbound hsearch ih

/-- Identifiers that are given one after another differ from each other and from those in use. -/
theorem identifiersBeside_spec (used : List String) (elements : List EnumElement) :
    (identifiersBeside used elements).Nodup ∧
      ∀ ident ∈ identifiersBeside used elements, ident ∉ used := by
  induction elements generalizing used with
  | nil => exact ⟨List.nodup_nil, fun ident h => absurd h List.not_mem_nil⟩
  | cons element rest ih =>
    have hfree := freeIdentifier_notMem used (wantedIdentifier element)
    obtain ⟨hnodup, hbeside⟩ := ih (freeIdentifier used (wantedIdentifier element) :: used)
    refine ⟨List.nodup_cons.2 ⟨?_, hnodup⟩, ?_⟩
    · intro hmem
      exact hbeside _ hmem List.mem_cons_self
    · intro ident hmem
      rcases List.mem_cons.1 hmem with rfl | hmem
      · exact hfree
      · intro hused
        exact hbeside ident hmem (List.mem_cons_of_mem _ hused)

theorem length_identifiersBeside (used : List String) (elements : List EnumElement) :
    (identifiersBeside used elements).length = elements.length := by
  induction elements generalizing used with
  | nil => rfl
  | cons element rest ih => simp [identifiersBeside, ih]

theorem length_identifiers (e : EnumType) : (identifiers e).length = e.elements.length :=
  length_identifiersBeside [] e.elements

/-- No two elements of an enum have the same identifier. -/
theorem nodup_identifiers (e : EnumType) : (identifiers e).Nodup :=
  (identifiersBeside_spec [] e.elements).1

/-- Further elements leave the identifiers of those before them as they are. -/
theorem identifiersBeside_prefix (used : List String) (elements more : List EnumElement) :
    identifiersBeside used elements <+: identifiersBeside used (elements ++ more) := by
  induction elements generalizing used with
  | nil => exact List.nil_prefix
  | cons e rest ih => exact (List.prefix_cons_inj _).2 (ih _)

/-- The identifier is the wanted one, perhaps with a number behind it. -/
def IsMadeFrom (e : EnumElement) (ident : String) : Prop :=
  ident = wantedIdentifier e ∨ ∃ k, 2 ≤ k ∧ ident = wantedIdentifier e ++ toString k

/-- Each element gets an identifier that is made from its own. -/
theorem forall₂_isMadeFrom (used : List String) (elements : List EnumElement) :
    List.Forall₂ IsMadeFrom elements (identifiersBeside used elements) := by
  induction elements generalizing used with
  | nil => exact .nil
  | cons e rest ih =>
    refine .cons ?_ (ih _)
    by_cases hbase : wantedIdentifier e ∈ used
    · obtain ⟨k, hle, -, hfound, -⟩ := exists_number hbase
      exact .inr ⟨k, hle, hfound⟩
    · exact .inl (freeIdentifier_eq_self hbase)

/-- The identifiers of an enum: the searches for them end, and in these alone; there is one for each
element in the order of the elements, and no two are alike; elements that are added behind leave
them as they are. -/
structure NamesApart (e : EnumType) : Prop where
  names_iff : ∀ idents, Names [] e.elements idents ↔ idents = identifiers e
  length_eq : (identifiers e).length = e.elements.length
  made : List.Forall₂ IsMadeFrom e.elements (identifiers e)
  nodup : (identifiers e).Nodup
  isStable : ∀ more, identifiers e <+: identifiers { e with elements := e.elements ++ more }

/-- Every enum names its elements apart, whatever their names and values. -/
theorem namesApart (e : EnumType) : NamesApart e where
  names_iff _ := names_iff
  length_eq := length_identifiers e
  made := forall₂_isMadeFrom [] e.elements
  nodup := nodup_identifiers e
  isStable := identifiersBeside_prefix [] e.elements

/-- Declared names and values that meet: the third element takes the number that the second one
already has as its own name. -/
example : identifiers ⟨"p:m:E", none, .string, [⟨some "a", .string "x", none, none⟩,
    ⟨none, .string "A2", none, none⟩, ⟨none, .string "A", none, none⟩]⟩ = ["A", "A2", "A3"] := by
  decide +kernel

end SchemaToJava.Java.EnumClass
