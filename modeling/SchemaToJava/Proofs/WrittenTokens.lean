import Mathlib.Tactic.Common
import SchemaToJava.Json.Tree
import SchemaToJava.Json.Writing

/-!
The tokens of a written JSON text. A text in quotes is scanned to the string that it was written
from, escapes and all, and the digits of an integer within 64 bits to that integer; so the tokens of
the text of a value without floating-point numbers are those that the value is made of.
-/
namespace SchemaToJava.Json

open Reading Floating

def atomToken (a : Atom) : Token := .atom (.ofAtom a)

def textToken (s : String) : Token := .text (.ofAtom (.string s))

/-- What stands after a value: nothing, or what separates or ends values. -/
def IsEnd (rest : List Char) : Prop := ∀ c ∈ rest.head?, c = ',' ∨ c = ']' ∨ c = '\x7d'

theorem tokens_cons {c : Char} {cs rest : List Char} {token : Token} (hspace : isSpace c = false)
    (h : scanToken c cs = (token, rest)) : tokens (c :: cs) = token :: tokens rest := by
  rw [tokens, hspace, if_neg (by decide), h]

section Strings

/-- An escaped character is scanned as the character. -/
theorem scanText_escapeChar (chars : List Char) (c : Char) (rest : List Char) :
    scanText ⟨chars, none, none⟩ (escapeChar c ++ rest) =
      scanText ⟨c :: chars, none, none⟩ rest := by
  have hcode : ∀ n < 0x20, hexCode? '0' '0' (Nat.digitChar (n / 16)) (Nat.digitChar (n % 16)) =
      some n := by decide +kernel
  unfold escapeChar
  split
  iterate 7 rfl
  · next hquote hbackslash _ _ _ _ _ =>
    split
    · next hcontrol =>
      change scanText _ ('\\' :: 'u' :: '0' :: '0' :: _ :: _ :: rest) = _
      rw [scanText, hcode c.toNat hcontrol]
      have hlow : ¬ (0xd800 ≤ c.toNat ∧ c.toNat ≤ 0xdbff) := by omega
      have hlow' : ¬ (0xdc00 ≤ c.toNat ∧ c.toNat ≤ 0xdfff) := by omega
      dsimp only [Quoted.pushUnit]
      rw [if_neg hlow, if_neg hlow', Char.ofNat_toNat]
      rfl
    · next hprintable =>
      change scanText _ (c :: rest) = _
      rw [scanText, if_neg hprintable]
      · rfl
      · exact hquote
      all_goals
        intros
        exact hbackslash (by assumption)

theorem scanText_flatMap (chars cs rest : List Char) :
    scanText ⟨chars, none, none⟩ (cs.flatMap escapeChar ++ '"' :: rest) =
      (textToken (String.ofList (chars.reverse ++ cs)), rest) := by
  induction cs generalizing chars with
  | nil =>
    change scanText _ ('"' :: rest) = _
    rw [scanText, List.append_nil]
    rfl
  | cons c cs ih =>
    rw [List.flatMap_cons, List.append_assoc, scanText_escapeChar, ih, List.reverse_cons,
      List.append_assoc]
    rfl

/-- A text in quotes is scanned to the text. -/
theorem tokens_quote (s : String) (rest : List Char) :
    tokens ((quote s).toList ++ rest) = textToken s :: tokens rest := by
  have htext : (quote s).toList ++ rest = '"' :: (s.toList.flatMap escapeChar ++ '"' :: rest) := by
    simp [quote]
  have hscan :
      scanToken '"' (s.toList.flatMap escapeChar ++ '"' :: rest) = (textToken s, rest) := by
    change scanText {} _ = _
    rw [scanText_flatMap, List.reverse_nil, List.nil_append, String.ofList_toList]
  rw [htext, tokens_cons rfl hscan]

end Strings

section Integers

variable {n : Nat} {rest : List Char}

theorem takeFitting_append {s t : Nat} {xs : List Nat} (h : takeFitting s xs = (t, []))
    (ys : List Nat) : takeFitting s (xs ++ ys) = takeFitting t ys := by
  induction xs generalizing s with
  | nil =>
    obtain ⟨rfl, -⟩ := Prod.mk.inj h
    rfl
  | cons d xs ih =>
    rw [takeFitting] at h
    rw [List.cons_append, takeFitting]
    split at h
    · next hfits =>
      rw [if_pos hfits]
      exact ih h
    · cases (Prod.mk.inj h).2

/-- All the digits of a number within 64 bits fit. -/
theorem takeFitting_toDigits (h : n < twoTo 64) :
    takeFitting 0 ((Nat.toDigits 10 n).map digitOf) = (n, []) := by
  have hdigit {d : Nat} (hd : d < 10) : digitOf d.digitChar = d := by
    rw [digitOf, Nat.toNat_digitChar_of_lt_ten hd]
    exact Nat.add_sub_cancel_left 48 d
  induction n using Nat.strongRecOn with
  | ind n ih =>
    rw [Nat.toDigits_eq_if (by decide)]
    split
    · next hlt =>
      rw [List.map_singleton, hdigit hlt, takeFitting, Nat.zero_mul, Nat.zero_add, if_pos h]
      rfl
    · next hge =>
      have hsmaller := ih (n / 10) (by omega) (by omega)
      have hlast : n / 10 * 10 + n % 10 = n := by omega
      rw [List.map_append, takeFitting_append hsmaller, List.map_singleton,
        hdigit (Nat.mod_lt n (by decide)), takeFitting, hlast, if_pos h]
      rfl

theorem exists_toDigits (n : Nat) : ∃ c ds, Nat.toDigits 10 n = c :: ds ∧ (c = '0' → n = 0) := by
  induction n using Nat.strongRecOn with
  | ind n ih =>
    rw [Nat.toDigits_eq_if (by decide)]
    split
    · next hlt =>
      refine ⟨n.digitChar, [], rfl, fun hzero => ?_⟩
      have hcode := Nat.toNat_digitChar_of_lt_ten hlt
      rw [hzero] at hcode
      change 48 = 48 + n at hcode
      omega
    · next hge =>
      obtain ⟨c, ds, heq, hzero⟩ := ih (n / 10) (by omega)
      refine ⟨c, ds ++ [(n % 10).digitChar], by rw [heq, List.cons_append], fun hc => ?_⟩
      have hquotient := hzero hc
      omega

theorem not_isDigit_head (h : IsEnd rest) : rest.head?.any Char.isDigit = false := by
  cases rest with
  | nil => rfl
  | cons c rest =>
    rcases h c rfl with rfl | rfl | rfl <;> rfl

theorem scanFraction_of_isEnd (h : IsEnd rest) (negative : Bool) (whole : List Nat) :
    scanFraction negative whole rest = (numberToken ⟨negative, whole, none, none⟩, rest) := by
  cases rest with
  | nil => rfl
  | cons c rest =>
    rcases h c rfl with rfl | rfl | rfl <;> rfl

/-- The digits of a number are scanned to its numeral. -/
theorem scanNumber_toDigits (h : IsEnd rest) (negative : Bool) (n : Nat) :
    ∃ c ds, Nat.toDigits 10 n = c :: ds ∧ c.isDigit = true ∧
      scanNumber negative c (ds ++ rest) =
        (numberToken ⟨negative, (Nat.toDigits 10 n).map digitOf, none, none⟩, rest) := by
  obtain ⟨c, ds, heq, hzero⟩ := exists_toDigits n
  have hdigits : ∀ x ∈ c :: ds, x.isDigit = true := by
    rw [← heq]
    exact fun x hx => Nat.isDigit_of_mem_toDigits (by decide) (by decide) hx
  obtain ⟨hc, hds⟩ := List.forall_mem_cons.1 hdigits
  refine ⟨c, ds, heq, hc, ?_⟩
  rw [heq]
  unfold scanNumber
  split
  · next hfirst =>
    have hn := hzero hfirst
    subst hn
    obtain ⟨rfl, rfl⟩ := List.cons.inj heq
    rw [List.nil_append, not_isDigit_head h, if_neg (by decide)]
    exact scanFraction_of_isEnd h negative [0]
  · have hdrop : rest.dropWhile Char.isDigit = rest ∧ rest.takeWhile Char.isDigit = [] := by
      cases rest with
      | nil => exact ⟨rfl, rfl⟩
      | cons x rest =>
        have hx : x.isDigit = false := by simpa using not_isDigit_head h
        simp [hx]
    dsimp only
    rw [List.takeWhile_append_of_pos hds, List.dropWhile_append_of_pos hds, hdrop.1, hdrop.2,
      List.append_nil]
    exact scanFraction_of_isEnd h negative _

theorem value_of_nat (h : n < twoTo 64) :
    Numeral.value ⟨false, (Nat.toDigits 10 n).map digitOf, none, none⟩ = some (.int n) := by
  unfold Numeral.value
  rw [takeFitting_toDigits h]
  rfl

theorem value_of_neg (h : n < twoTo 63) :
    Numeral.value ⟨true, (Nat.toDigits 10 (n + 1)).map digitOf, none, none⟩ =
      some (.int (.negSucc n)) := by
  have hwords : twoTo 64 = 2 * twoTo 63 := by decide
  have hfits : n + 1 < twoTo 64 := by omega
  unfold Numeral.value
  rw [takeFitting_toDigits hfits]
  have hlast : n + 1 ≤ twoTo 63 := h
  dsimp only
  rw [if_pos (by simp [hlast]), if_pos rfl]
  rfl

theorem scanToken_of_isDigit {c : Char} (h : c.isDigit = true) (rest : List Char) :
    scanToken c rest = scanNumber false c rest := by
  unfold scanToken
  split
  iterate 11 cases h
  exact if_pos h

/-- The digits of an integer within 64 bits are scanned to the integer. -/
theorem tokens_int {i : Int} (hlo : -(twoTo 63 : Int) ≤ i) (hhi : i < twoTo 64) (h : IsEnd rest) :
    tokens ((toString i).toList ++ rest) = atomToken (.number (.int i)) :: tokens rest := by
  cases i with
  | ofNat n =>
    obtain ⟨c, ds, heq, hc, hscan⟩ := scanNumber_toDigits h false n
    have htext : (toString (Int.ofNat n)).toList = c :: ds := by
      rw [← heq]
      exact Nat.toList_repr
    have hspace : isSpace c = false := by
      rw [Bool.eq_false_iff]
      intro hspace
      simp only [isSpace, Bool.or_eq_true, beq_iff_eq] at hspace
      rcases hspace with ((rfl | rfl) | rfl) | rfl <;> cases hc
    rw [htext, List.cons_append, tokens_cons hspace ((scanToken_of_isDigit hc _).trans hscan),
      numberToken, value_of_nat (Int.ofNat_lt.1 hhi)]
    rfl
  | negSucc n =>
    obtain ⟨c, ds, heq, hc, hscan⟩ := scanNumber_toDigits h true (n + 1)
    have htext : (toString (Int.negSucc n)).toList = '-' :: c :: ds := by
      rw [← heq, ← Nat.toList_repr]
      exact String.toList_append
    have hminus : scanToken '-' (c :: (ds ++ rest)) = scanNumber true c (ds ++ rest) := if_pos hc
    rw [htext, List.cons_append, List.cons_append, tokens_cons rfl (hminus.trans hscan),
      numberToken, value_of_neg (by omega)]
    rfl

end Integers

end SchemaToJava.Json
