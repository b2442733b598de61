import SchemaToJava.Java.Field
import SchemaToJava.Proofs.CaseTokens

/-!
When the names of properties become the same identifier. An underscore is put to what Java would
refuse, so two names meet if they are spelled alike without it, or if one is spelled like the other
is with it. Names that start with a small letter and do not end in an underscore keep their spelling
but for the underscore, so that no two of them meet.
-/
namespace SchemaToJava.Java.Identifier

section Escapes

variable {a b s t word : String}

/-- The text is not acceptable, and becomes so by an underscore. -/
inductive Escapes : String → String → Prop
  | empty : Escapes "" "_"
  | digit {s : String} {first : Char} {rest : List Char} :
      s.toList = first :: rest → first.isDigit = true → Escapes s ("_" ++ s)
  | reserved {s : String} : isReserved s = true → Escapes s (s ++ "_")

/-- An identifier is left as it is, or gets an underscore because it must. -/
theorem escape_cases (s : String) : escape s = s ∨ Escapes s (escape s) := by
  unfold escape
  split
  · next hnil =>
    obtain rfl := String.toList_eq_nil_iff.1 hnil
    exact .inr .empty
  · next first rest hcons =>
    split
    · next hdigit => exact .inr (.digit hcons hdigit)
    · split
      · next hreserved => exact .inr (.reserved hreserved)
      · exact .inl rfl

theorem underscore_notMem_of_isReserved (h : isReserved word = true) : '_' ∉ word.toList := by
  have hall : ∀ word ∈ reservedWords, '_' ∉ word.toList := by decide
  exact hall word (List.contains_iff_mem.1 h)

theorem exists_first_of_isReserved (h : isReserved word = true) :
    ∃ first rest, word.toList = first :: rest ∧ first.isDigit = false ∧ first ≠ '_' := by
  have hall : ∀ word ∈ reservedWords,
      word.toList.head?.any (fun c => !c.isDigit && c != '_') = true := by decide
  obtain ⟨first, hfirst, hletter⟩ :=
    (Option.any_eq_true _ _).1 (hall word (List.contains_iff_mem.1 h))
  obtain ⟨rest, hrest⟩ := List.head?_eq_some_iff.1 hfirst
  exact ⟨first, rest, hrest, by simpa using hletter⟩

/-- A text with an underscore and without a digit in front is acceptable. -/
theorem escape_eq_self {first : Char} {rest : List Char} (hcons : s.toList = first :: rest)
    (hdigit : first.isDigit = false) (hmem : '_' ∈ s.toList) : escape s = s := by
  have hreserved : isReserved s = false :=
    Bool.eq_false_iff.2 fun h => underscore_notMem_of_isReserved h hmem
  unfold escape
  rw [hcons]
  simp [hdigit, hreserved]

theorem Escapes.escape_eq_self (h : Escapes s t) : escape t = t := by
  cases h with
  | empty => rfl
  | digit hcons hdigit =>
    exact Identifier.escape_eq_self String.toList_append (by decide) (by simp)
  | reserved hreserved =>
    obtain ⟨first, rest, hcons, hdigit, -⟩ := exists_first_of_isReserved hreserved
    have hescaped : (s ++ "_").toList = first :: (rest ++ ['_']) := by
      rw [String.toList_append, hcons]
      rfl
    exact Identifier.escape_eq_self hescaped hdigit (by simp)

theorem Escapes.underscore_mem (h : Escapes s t) : '_' ∈ t.toList := by
  cases h <;> simp

/-- An underscore is put to a text once. -/
theorem escape_escape (s : String) : escape (escape s) = escape s := by
  rcases escape_cases s with h | h
  · rw [h, h]
  · exact h.escape_eq_self

/-- What a text was before an underscore was put to it. -/
def unescaped (t : String) : List Char :=
  match t.toList with
  | ['_'] => []
  | '_' :: rest => rest
  | cs => cs.dropLast

theorem Escapes.unescaped_eq (h : Escapes s t) : unescaped t = s.toList := by
  cases h with
  | empty => rfl
  | digit hcons hdigit =>
    unfold unescaped
    rw [String.toList_append, hcons]
    rfl
  | reserved hreserved =>
    obtain ⟨first, rest, hcons, -, hne⟩ := exists_first_of_isReserved hreserved
    unfold unescaped
    rw [String.toList_append, hcons]
    split
    · next heq => exact absurd (List.cons.inj heq).1 hne
    · next heq => exact absurd (List.cons.inj heq).1 hne
    · exact List.dropLast_concat

/-- Texts become the same identifier if they are the same, or if one is what the other becomes. -/
theorem escape_eq_escape_iff : escape a = escape b ↔ a = b ∨ a = escape b ∨ b = escape a := by
  constructor
  · intro h
    rcases escape_cases a with ha | ha
    · exact .inr (.inl (ha.symm.trans h))
    · rcases escape_cases b with hb | hb
      · exact .inr (.inr (hb.symm.trans h.symm))
      · exact .inl (String.toList_inj.1 (ha.unescaped_eq.symm.trans (h ▸ hb.unescaped_eq)))
  · rintro (rfl | rfl | rfl)
    · rfl
    · exact escape_escape b
    · exact (escape_escape a).symm

end Escapes

section Names

variable {a b name : String}

/-- The identifier for a name before an underscore is put to it. -/
def spelling (name : String) : String :=
  if isPlain name then mapFirst Char.toLower name else Text.lowerCamel name

/-- The names are spelled alike, perhaps after an underscore is put to one of them. -/
def Meet (a b : String) : Prop :=
  spelling a = spelling b ∨ spelling a = escape (spelling b) ∨ spelling b = escape (spelling a)

theorem ofProperty_eq_iff : ofProperty a = ofProperty b ↔ Meet a b := escape_eq_escape_iff

/-- The name starts with a small letter, consists of letters, digits and underscores, and does not
end in an underscore. -/
structure IsOrdinary (name : String) : Prop where
  first : name.toList.head?.any Char.isLower = true
  plain : name.toList.all isWordChar = true
  last : name.toList.getLast? ≠ some '_'

theorem toLower_of_isLower {c : Char} (h : c.isLower = true) : c.toLower = c := by
  have hlower : 97 ≤ c.toNat ∧ c.toNat ≤ 122 := by
    change (c.val ≥ 'a'.val && c.val ≤ 'z'.val) = true at h
    simpa [UInt32.le_iff_toNat_le, ← Char.toNat_val] using h
  have hupper : ¬ (c.val ≥ 'A'.val ∧ c.val ≤ 'Z'.val) := by
    rintro ⟨-, hle⟩
    have hle : c.toNat ≤ 90 := UInt32.le_iff_toNat_le.1 hle
    omega
  unfold Char.toLower
  rw [dif_neg hupper]

theorem IsOrdinary.spelling_eq (h : IsOrdinary name) : spelling name = name := by
  obtain ⟨first, hfirst, hlower⟩ := (Option.any_eq_true _ _).1 h.first
  obtain ⟨rest, hcons⟩ := List.head?_eq_some_iff.1 hfirst
  have hplain : isPlain name = true := by
    have hne : name.isEmpty = false := by
      rw [← Bool.not_eq_true, String.isEmpty_iff, ← String.toList_eq_nil_iff, hcons]
      exact List.cons_ne_nil first rest
    unfold isPlain
    rw [hne, h.plain]
    rfl
  unfold spelling mapFirst
  rw [if_pos hplain, hcons]
  dsimp only
  rw [toLower_of_isLower hlower, ← hcons, String.ofList_toList]

/-- The identifier for an ordinary name does not start with an underscore, and is the name unless it
ends in one. -/
theorem IsOrdinary.eq_of_eq_escape (ha : IsOrdinary a) (hb : IsOrdinary b) (h : a = escape b) :
    a = b := by
  rcases escape_cases b with hself | hescapes
  · exact h.trans hself
  · rw [← h] at hescapes
    cases hescapes with
    | empty => exact absurd ha.first (by decide)
    | digit =>
      have hfirst := ha.first
      rw [String.toList_append] at hfirst
      cases hfirst
    | reserved =>
      refine absurd ?_ ha.last
      rw [String.toList_append]
      exact List.getLast?_concat

/-- No two ordinary names meet. -/
theorem not_meet_of_isOrdinary (ha : IsOrdinary a) (hb : IsOrdinary b) (hne : a ≠ b) :
    ¬ Meet a b := by
  unfold Meet
  rw [ha.spelling_eq, hb.spelling_eq]
  rintro (h | h | h)
  · exact hne h
  · exact hne (ha.eq_of_eq_escape hb h)
  · exact hne (hb.eq_of_eq_escape ha h).symm

example : ofProperty "class" = "class_" ∧ ofProperty "class_" = "class_" := by decide

/-- The identifier is that of the method that makes a builder exactly if the name is spelled so. -/
theorem ofProperty_eq_builder_iff : ofProperty name = "builder" ↔ spelling name = "builder" := by
  change escape (spelling name) = _ ↔ _
  constructor
  · intro h
    rcases escape_cases (spelling name) with hself | hescapes
    · exact hself.symm.trans h
    · rw [h] at hescapes
      exact absurd hescapes.underscore_mem (by decide)
  · intro h
    rw [h]
    decide

end Names

end SchemaToJava.Java.Identifier
