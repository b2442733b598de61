import SchemaToJava.Text.LetterCase
import SchemaToJava.Text.Pieces

/-!
What lower-casing leaves recognisable. A character before the letter `g` comes from itself, or from
its capital if it is a letter, and from nothing else; so texts that agree in lower case have their
separators, and the escapes written with such characters, in the same places.
-/
namespace SchemaToJava.Text

/-- The characters that lower-casing keeps apart from all others. -/
def IsEarly (c : Char) : Prop := 0 < c.toNat ∧ c.toNat < 0x67

instance (c : Char) : Decidable (IsEarly c) := inferInstanceAs (Decidable (_ ∧ _))

theorem not_isEarly_ofNat {n : Nat} (h : 0x67 ≤ n) : ¬ IsEarly (Char.ofNat n) := by
  rintro ⟨hpos, hlt⟩
  unfold Char.ofNat at hpos hlt
  by_cases hvalid : n.isValidChar
  · rw [dif_pos hvalid] at hlt
    exact Nat.not_lt.2 h hlt
  · rw [dif_neg hvalid] at hpos
    exact absurd hpos (by decide)

section CaseImages

variable {expansions : List (Nat × List Nat)} {shifts : List (Nat × Nat × Nat × Int)} {c x : Char}

/-- A case map leads to an image that is listed, to a code point at a distance that is listed for a
range, or nowhere. -/
theorem mem_caseImage (hx : x ∈ caseImage expansions shifts c) :
    (∃ entry ∈ expansions, ∃ n ∈ entry.2, x = Char.ofNat n) ∨
    (∃ entry ∈ shifts, entry.1 ≤ c.toNat ∧ c.toNat ≤ entry.2.1 ∧
      x = Char.ofNat (c.toNat + entry.2.2.2).toNat) ∨ x = c := by
  unfold caseImage at hx
  split at hx
  · next image himage =>
    obtain ⟨before, after, hsplit, -⟩ := List.lookup_eq_some_iff.1 himage
    obtain ⟨n, hn, rfl⟩ := List.mem_map.1 hx
    exact .inl ⟨(c.toNat, image), by simp [hsplit], n, hn, rfl⟩
  · split at hx
    · next lo hi step distance hfind =>
      have hrange := List.find?_some hfind
      simp only [Bool.and_eq_true, decide_eq_true_eq] at hrange
      obtain rfl := List.mem_singleton.1 hx
      exact .inr (.inl ⟨_, List.mem_of_find?_eq_some hfind, hrange.1.1, hrange.1.2, rfl⟩)
    · exact .inr (.inr (List.mem_singleton.1 hx))

theorem caseImage_ne_nil (h : ∀ entry ∈ expansions, entry.2 ≠ []) :
    caseImage expansions shifts c ≠ [] := by
  unfold caseImage
  split
  · next image himage =>
    obtain ⟨before, after, hsplit, -⟩ := List.lookup_eq_some_iff.1 himage
    simpa using h (c.toNat, image) (by simp [hsplit])
  · split <;> simp

end CaseImages

theorem not_isEarly_of_mem_caseImage {c x : Char} (hc : 0x80 ≤ c.toNat)
    (hx : x ∈ caseImage lowerExpansions lowerShifts c) : ¬ IsEarly x := by
  rcases mem_caseImage hx with ⟨entry, hentry, n, hn, rfl⟩ | ⟨entry, hentry, hlo, -, rfl⟩ | rfl
  · have hall : ∀ entry ∈ lowerExpansions, ∀ n ∈ entry.2, 0x67 ≤ n := by decide
    exact not_isEarly_ofNat (hall entry hentry n hn)
  · have hall : ∀ entry ∈ lowerShifts, 0x67 ≤ (entry.1 : Int) + entry.2.2.2 := by decide +kernel
    have hshift := hall entry hentry
    exact not_isEarly_ofNat (by omega)
  · rintro ⟨-, hlt⟩
    omega

/-- An early character stands alone in the image that it occurs in. -/
theorem toLower_of_mem {c x : Char} (hx : x ∈ toLower c) (hearly : IsEarly x) :
    toLower c = [x] ∧ c.toLower = x := by
  unfold toLower at hx ⊢
  split at hx
  · next hlt =>
    obtain rfl := List.mem_singleton.1 hx
    exact ⟨if_pos hlt, rfl⟩
  · next hge => exact absurd hearly (not_isEarly_of_mem_caseImage (Nat.le_of_not_lt hge) hx)

theorem toLower_ne_nil (c : Char) : toLower c ≠ [] := by
  unfold toLower
  split
  · simp
  · exact caseImage_ne_nil (by decide)

structure Lowers (c : Char) (image : List Char) : Prop where
  ne_nil : image ≠ []
  early : ∀ x ∈ image, IsEarly x → image = [x] ∧ c.toLower = x
  of_ascii : c.toNat < 0x80 → image = [c.toLower]

/-- A text is lower-cased character by character; only a sigma looks around. -/
theorem lowercaseAfter_cons (before : List Char) (c : Char) (rest : List Char) :
    ∃ image, Lowers c image ∧
      lowercaseAfter before (c :: rest) = image ++ lowercaseAfter (c :: before) rest := by
  rw [lowercaseAfter]
  by_cases hsigma : c = 'Σ'
  · subst hsigma
    have hlate {x : Char} (hx : x = 'ς' ∨ x = 'σ') : ¬ IsEarly x := by
      rintro ⟨-, hlt⟩
      rcases hx with rfl | rfl <;> revert hlt <;> decide
    have hlowers {x : Char} (hx : x = 'ς' ∨ x = 'σ') : Lowers 'Σ' [x] := by
      refine ⟨by simp, fun y hy hearly => ?_, fun h => absurd h (by decide)⟩
      exact absurd (List.mem_singleton.1 hy ▸ hearly) (hlate hx)
    rw [if_pos rfl]
    split
    · exact ⟨_, hlowers (.inl rfl), rfl⟩
    · exact ⟨_, hlowers (.inr rfl), rfl⟩
  · rw [if_neg hsigma]
    refine ⟨_, ⟨toLower_ne_nil c, fun x hx hearly => toLower_of_mem hx hearly, fun h => ?_⟩, rfl⟩
    rw [toLower, if_pos h]

end SchemaToJava.Text
