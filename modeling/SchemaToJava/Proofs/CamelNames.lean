import SchemaToJava.Proofs.CaseTokens
import SchemaToJava.Proofs.NameCharacters

/-!
What camel-casing keeps of a name. The words of a name run together are its letters and digits, so
a camel-cased name is empty just if there are none. Each of its characters is a form of one of them
in another case; none is an underscore, and those of an ASCII name are ASCII letters and digits
again.
-/
namespace SchemaToJava.Text

section Words

/-- Only the characters between the stretches are lost. -/
theorem flatten_stretches (p : Char → Bool) (cs : List Char) :
    (stretches p cs).flatten = cs.filter p := by
  fun_induction stretches p cs with
  | case1 => rfl
  | case2 c rest hc d first later hlater _ _ ih =>
    rw [hlater] at ih
    rw [List.filter_cons_of_pos hc, ← ih]
    rfl
  | case3 c rest hc d first later hlater _ _ ih =>
    rw [hlater] at ih
    rw [List.filter_cons_of_pos hc, ← ih]
    rfl
  | case4 c rest hc _ ih =>
    rw [List.filter_cons_of_pos hc, ← ih]
    rfl
  | case5 c rest hc ih =>
    rw [List.filter_cons_of_neg hc, ih]

theorem flatten_cutByCase (seen : CaseSeen) (word cs : List Char) :
    (cutByCase seen word cs).flatten = word.reverse ++ cs := by
  fun_induction cutByCase seen word cs with
  | case1 seen word hempty => simp [List.isEmpty_iff.1 hempty]
  | case2 => simp
  | case3 => simp
  | case4 seen word c d rest hlower ih => simp [ih]
  | case5 seen word c d rest hlower hupper ih => simp [ih]
  | case6 seen word c d rest hlower hupper ih => simp [ih]

/-- The words of a name run together are its letters and digits. -/
theorem flatten_words (s : String) : (words s).flatten = s.toList.filter isAlphanumeric := by
  rw [words, List.flatMap_def, List.flatten_flatten, List.map_map, ← flatten_stretches]
  have hcut : List.flatten ∘ cutByCase .none [] = id :=
    funext fun stretch => flatten_cutByCase .none [] stretch
  rw [hcut, List.map_id]

end Words

section Forms

variable {c x : Char} {word : List Char}

/-- The characters that may stand for a character in a camel-cased name. -/
def caseForms (c : Char) : List Char :=
  toLower c ++ toUpper c ++ if c = 'Σ' then ['ς'] else []

theorem mem_lowerWord (hx : x ∈ lowerWord word) : ∃ c ∈ word, x ∈ caseForms c := by
  fun_induction lowerWord word with
  | case1 => cases hx
  | case2 =>
    refine ⟨'Σ', List.mem_singleton_self _, ?_⟩
    exact List.mem_append_right _ hx
  | case3 c rest _ ih =>
    rcases List.mem_append.1 hx with hx | hx
    · exact ⟨c, List.mem_cons_self, by simp [caseForms, hx]⟩
    · obtain ⟨d, hd, hx⟩ := ih hx
      exact ⟨d, List.mem_cons_of_mem c hd, hx⟩

theorem mem_capitalizedWord (hx : x ∈ capitalizedWord word) : ∃ c ∈ word, x ∈ caseForms c := by
  cases word with
  | nil => cases hx
  | cons c rest =>
    rcases List.mem_append.1 hx with hx | hx
    · exact ⟨c, List.mem_cons_self, by simp [caseForms, hx]⟩
    · obtain ⟨d, hd, hx⟩ := mem_lowerWord hx
      exact ⟨d, List.mem_cons_of_mem c hd, hx⟩

theorem toUpper_ne_nil (c : Char) : toUpper c ≠ [] := by
  unfold toUpper
  split
  · simp
  · exact caseImage_ne_nil (by decide)

theorem lowerWord_eq_nil_iff : lowerWord word = [] ↔ word = [] := by
  fun_cases lowerWord word with
  | case1 => simp
  | case2 => simp
  | case3 c rest _ => simp [toLower_ne_nil]

theorem capitalizedWord_eq_nil_iff : capitalizedWord word = [] ↔ word = [] := by
  cases word with
  | nil => simp [capitalizedWord]
  | cons c rest => simp [capitalizedWord, toUpper_ne_nil]

/-- A case map does not lead to a character that no image of an entry is. -/
theorem notMem_caseImage {expansions : List (Nat × List Nat)}
    {shifts : List (Nat × Nat × Nat × Int)} (hpos : 0 < x.toNat)
    (hexpansions : ∀ entry ∈ expansions, ∀ n ∈ entry.2, n ≠ x.toNat)
    (hshifts : ∀ entry ∈ shifts,
      (x.toNat : Int) < entry.1 + entry.2.2.2 ∨ entry.2.1 + entry.2.2.2 < (x.toNat : Int))
    (hne : c ≠ x) : x ∉ caseImage expansions shifts c := by
  have hofNat {n : Nat} (h : x = Char.ofNat n) : n = x.toNat := by
    rcases toNat_ofNat n with hn | hn
    · rw [h, hn]
    · rw [← h] at hn
      omega
  intro hx
  rcases mem_caseImage hx with ⟨entry, hentry, n, hn, h⟩ | ⟨entry, hentry, hlo, hhi, h⟩ | h
  · exact hexpansions entry hentry n hn (hofNat h)
  · have hrange := hshifts entry hentry
    have hnat := hofNat h
    omega
  · exact hne h.symm

/-- The forms of an ASCII letter or digit are ASCII letters and digits. -/
theorem isAlphanum_of_mem_caseForms (hc : c.isAlphanum = true) (hx : x ∈ caseForms c) :
    x.isAlphanum = true := by
  have hascii : c.toNat < 0x80 :=
    Java.Identifier.lt_of_isWordChar (Bool.or_eq_true_iff.2 (.inl hc))
  have hsigma : c ≠ 'Σ' := by
    intro h
    rw [h] at hascii
    exact absurd hascii (by decide)
  simp only [caseForms, toLower, toUpper, if_pos hascii, if_neg hsigma, List.append_nil,
    List.mem_append, List.mem_singleton] at hx
  have hcases : c.toLower.isAlphanum = true ∧ c.toUpper.isAlphanum = true :=
    forall_ascii (P := fun c => c.isAlphanum = true →
      c.toLower.isAlphanum = true ∧ c.toUpper.isAlphanum = true) (by decide) hascii hc
  rcases hx with rfl | rfl
  · exact hcases.1
  · exact hcases.2

theorem underscore_notMem_caseForms (hc : isAlphanumeric c = true) : '_' ∉ caseForms c := by
  by_cases hascii : c.toNat < 0x80
  · rw [isAlphanumeric_of_ascii hascii] at hc
    intro hx
    exact absurd (isAlphanum_of_mem_caseForms hc hx) (by decide)
  · have hlow : 0x80 ≤ c.toNat := Nat.le_of_not_lt hascii
    have hne : c ≠ '_' := by
      intro h
      rw [h] at hlow
      exact absurd hlow (by decide)
    simp only [caseForms, toLower, toUpper, if_neg hascii, List.mem_append]
    rintro ((hx | hx) | hx)
    · exact not_isEarly_of_mem_caseImage hlow hx (by decide)
    · exact notMem_caseImage (by decide) (by decide +kernel) (by decide +kernel) hne hx
    · split at hx
      · exact absurd hx (by decide)
      · cases hx

end Forms

section Names

variable {s : String} {x : Char}

theorem toList_lowerCamel (s : String) : (lowerCamel s).toList =
    lowerWord ((words s).headD []) ++ (words s).tail.flatMap capitalizedWord := by
  unfold lowerCamel
  split
  · next hwords =>
    rw [hwords]
    rfl
  · next first later hwords =>
    rw [hwords, String.toList_ofList]
    rfl

theorem mem_of_mem_words {word : List Char} {c : Char} (hword : word ∈ words s) (hc : c ∈ word) :
    c ∈ s.toList ∧ isAlphanumeric c = true := by
  have hmem : c ∈ (words s).flatten := List.mem_flatten.2 ⟨word, hword, hc⟩
  rw [flatten_words] at hmem
  exact List.mem_filter.1 hmem

theorem mem_flatMap_capitalizedWord {ws : List (List Char)} (hws : ∀ word ∈ ws, word ∈ words s)
    (hx : x ∈ ws.flatMap capitalizedWord) :
    ∃ c ∈ s.toList, isAlphanumeric c = true ∧ x ∈ caseForms c := by
  obtain ⟨word, hword, hx⟩ := List.mem_flatMap.1 hx
  obtain ⟨c, hc, hform⟩ := mem_capitalizedWord hx
  have hname := mem_of_mem_words (hws word hword) hc
  exact ⟨c, hname.1, hname.2, hform⟩

theorem mem_upperCamel (hx : x ∈ (upperCamel s).toList) :
    ∃ c ∈ s.toList, isAlphanumeric c = true ∧ x ∈ caseForms c := by
  rw [upperCamel, String.toList_ofList] at hx
  exact mem_flatMap_capitalizedWord (fun _ hword => hword) hx

theorem mem_lowerCamel (hx : x ∈ (lowerCamel s).toList) :
    ∃ c ∈ s.toList, isAlphanumeric c = true ∧ x ∈ caseForms c := by
  rw [toList_lowerCamel] at hx
  rcases List.mem_append.1 hx with hx | hx
  · cases hwords : words s with
    | nil =>
      rw [hwords] at hx
      cases hx
    | cons first later =>
      rw [hwords] at hx
      obtain ⟨c, hc, hform⟩ := mem_lowerWord hx
      have hname := mem_of_mem_words (hwords ▸ List.mem_cons_self) hc
      exact ⟨c, hname.1, hname.2, hform⟩
  · exact mem_flatMap_capitalizedWord (fun _ hword => List.mem_of_mem_tail hword) hx

theorem upperCamel_eq_empty_iff :
    upperCamel s = "" ↔ ∀ c ∈ s.toList, isAlphanumeric c = false := by
  have hwords : (∀ word ∈ words s, word = []) ↔ (words s).flatten = [] := by simp
  rw [← String.toList_eq_nil_iff, upperCamel, String.toList_ofList, List.flatMap_eq_nil_iff]
  simp only [capitalizedWord_eq_nil_iff]
  rw [hwords, flatten_words, List.filter_eq_nil_iff]
  simp

theorem lowerCamel_eq_empty_iff :
    lowerCamel s = "" ↔ ∀ c ∈ s.toList, isAlphanumeric c = false := by
  rw [← upperCamel_eq_empty_iff, ← String.toList_eq_nil_iff, ← String.toList_eq_nil_iff,
    toList_lowerCamel, upperCamel, String.toList_ofList]
  cases words s with
  | nil => simp [lowerWord]
  | cons first later => simp [lowerWord_eq_nil_iff, capitalizedWord_eq_nil_iff]

/-- A text that has forms of the letters and digits of a name, unless the name has none of them. -/
structure CasedFrom (name cased : String) : Prop where
  forms : ∀ x ∈ cased.toList, ∃ c ∈ name.toList, isAlphanumeric c = true ∧ x ∈ caseForms c
  eq_empty_iff : cased = "" ↔ ∀ c ∈ name.toList, isAlphanumeric c = false

theorem casedFrom_lowerCamel (name : String) : CasedFrom name (lowerCamel name) :=
  ⟨fun _ hx => mem_lowerCamel hx, lowerCamel_eq_empty_iff⟩

theorem casedFrom_upperCamel (name : String) : CasedFrom name (upperCamel name) :=
  ⟨fun _ hx => mem_upperCamel hx, upperCamel_eq_empty_iff⟩

theorem CasedFrom.underscore_notMem {name cased : String} (h : CasedFrom name cased) :
    '_' ∉ cased.toList := by
  intro hx
  obtain ⟨c, -, halnum, hform⟩ := h.forms '_' hx
  exact underscore_notMem_caseForms halnum hform

end Names

end SchemaToJava.Text
