import SchemaToJava.Proofs.CamelNames
import SchemaToJava.Proofs.PropertyIdentifiers
import SchemaToJava.Proofs.QualifiedTypes

/-!
Which of the identifiers Java accepts. The words that get an underscore are all the reserved ones
but the single underscore, and that is what a name without letters and digits becomes: the name
that is one underscore keeps it, and a text that has nothing left gets it. No other result is
reserved, and none is empty. Beyond ASCII, camel-casing keeps letters and digits by the tables of
Unicode, and only an ASCII digit in front gets an underscore; so it depends on what Java takes for
a letter whether such a name becomes an identifier. Of the names in ASCII, only those without
letters and digits may be refused.
-/
namespace SchemaToJava.Java.Identifier

/-- The letters and digits of a version of Java: those of ASCII, and others. -/
structure Alphabet where
  isLetter : Char → Bool
  isDigit : Char → Bool
  letter_of_isAlpha : ∀ {c : Char}, c.isAlpha = true → isLetter c = true
  digit_of_isDigit : ∀ {c : Char}, c.isDigit = true → isDigit c = true

/-- The keywords, the literals that are written like them, and the underscore. -/
def javaWords : List String :=
  ["abstract", "assert", "boolean", "break", "byte", "case", "catch", "char", "class", "const",
    "continue", "default", "do", "double", "else", "enum", "extends", "final", "finally", "float",
    "for", "goto", "if", "implements", "import", "instanceof", "int", "interface", "long",
    "native", "new", "package", "private", "protected", "public", "return", "short", "static",
    "strictfp", "super", "switch", "synchronized", "this", "throw", "throws", "transient", "try",
    "void", "volatile", "while", "_", "true", "false", "null"]

namespace Alphabet

variable (j : Alphabet)

def ascii : Alphabet := ⟨Char.isAlpha, Char.isDigit, id, id⟩

instance : Inhabited Alphabet := ⟨ascii⟩

def starts (c : Char) : Bool := j.isLetter c || c == '_' || c == '$'

def continues (c : Char) : Bool := j.starts c || j.isDigit c

/-- The text has the characters of an identifier. -/
def Reads (cs : List Char) : Prop :=
  ∃ first rest, cs = first :: rest ∧ j.starts first = true ∧ rest.all j.continues = true

/-- The text has the characters of an identifier, or an ASCII digit in place of the first. -/
def Spells (cs : List Char) : Prop :=
  ∃ first rest, cs = first :: rest ∧ (j.starts first = true ∨ first.isDigit = true) ∧
    rest.all j.continues = true

/-- The text is an identifier of Java. -/
def IsIdentifier (ident : String) : Prop := j.Reads ident.toList ∧ ident ∉ javaWords

variable {j}

theorem reads_cons_iff {first : Char} {rest : List Char} :
    j.Reads (first :: rest) ↔ j.starts first = true ∧ rest.all j.continues = true := by
  simp [Reads]

theorem spells_cons_iff {first : Char} {rest : List Char} : j.Spells (first :: rest) ↔
    (j.starts first = true ∨ first.isDigit = true) ∧ rest.all j.continues = true := by
  simp [Spells]

theorem continues_of_starts {c : Char} (h : j.starts c = true) : j.continues c = true :=
  Bool.or_eq_true_iff.2 (.inl h)

theorem starts_of_isAlpha {c : Char} (h : c.isAlpha = true) : j.starts c = true := by
  simp [starts, j.letter_of_isAlpha h]

@[simp] theorem starts_underscore : j.starts '_' = true := by simp [starts]

@[simp] theorem continues_underscore : j.continues '_' = true :=
  continues_of_starts starts_underscore

theorem continues_of_isDigit {c : Char} (h : c.isDigit = true) : j.continues c = true :=
  Bool.or_eq_true_iff.2 (.inr (j.digit_of_isDigit h))

theorem starts_or_isDigit_of_isWordChar {c : Char} (h : isWordChar c = true) :
    j.starts c = true ∨ c.isDigit = true := by
  rcases Bool.or_eq_true_iff.1 h with halnum | hunderscore
  · rcases Bool.or_eq_true_iff.1 halnum with halpha | hdigit
    · exact .inl (starts_of_isAlpha halpha)
    · exact .inr hdigit
  · obtain rfl := eq_of_beq hunderscore
    exact .inl starts_underscore

theorem continues_of_isWordChar {c : Char} (h : isWordChar c = true) : j.continues c = true := by
  rcases starts_or_isDigit_of_isWordChar (j := j) h with hstarts | hdigit
  · exact continues_of_starts hstarts
  · exact continues_of_isDigit hdigit

/-- A text of ASCII letters, digits and underscores has the characters of an identifier. -/
theorem spells_of_isWordChar {cs : List Char} (h : ∀ c ∈ cs, isWordChar c = true) (hne : cs ≠ []) :
    j.Spells cs := by
  obtain ⟨first, rest, rfl⟩ := List.exists_cons_of_ne_nil hne
  refine ⟨first, rest, rfl, starts_or_isDigit_of_isWordChar (h first List.mem_cons_self), ?_⟩
  exact List.all_eq_true.2 fun c hc => continues_of_isWordChar (h c (List.mem_cons_of_mem first hc))

theorem not_isIdentifier_underscore : ¬ j.IsIdentifier "_" := fun h => h.2 (by decide)

end Alphabet

section Escape

variable {j : Alphabet} {s : String}

theorem isReserved_of_mem_javaWords {word : String} (h : word ∈ javaWords) (hne : word ≠ "_") :
    isReserved word = true := by
  have hall : ∀ word ∈ javaWords, word ≠ "_" → isReserved word = true := by decide
  exact hall word h hne

theorem escape_of_isReserved (h : isReserved s = true) : escape s = s ++ "_" := by
  obtain ⟨first, rest, hcons, hdigit, -⟩ := exists_first_of_isReserved h
  unfold escape
  rw [hcons]
  simp [hdigit, h]

theorem escape_mem_javaWords_iff : escape s ∈ javaWords ↔ escape s = "_" := by
  constructor
  · intro h
    by_contra hne
    have hreserved := isReserved_of_mem_javaWords h hne
    have hescaped := escape_of_isReserved hreserved
    rw [escape_escape] at hescaped
    apply underscore_notMem_of_isReserved hreserved
    rw [hescaped]
    simp
  · intro h
    rw [h]
    decide

theorem escape_eq_underscore_iff : escape s = "_" ↔ s = "" ∨ s = "_" := by
  constructor
  · intro h
    rcases escape_cases s with hself | hescapes
    · exact .inr (hself.symm.trans h)
    · have hchars := hescapes.unescaped_eq
      rw [h] at hchars
      exact .inl (String.toList_eq_nil_iff.1 hchars.symm)
  · rintro (rfl | rfl) <;> rfl

/-- The underscore gives a text the characters of an identifier if it lacks only the first. -/
theorem reads_escape_iff : j.Reads (escape s).toList ↔ s = "" ∨ j.Spells s.toList := by
  unfold escape
  split
  · next hnil =>
    have hempty : s = "" := String.toList_eq_nil_iff.1 hnil
    have hreads : j.Reads ['_'] := Alphabet.reads_cons_iff.2 ⟨Alphabet.starts_underscore, rfl⟩
    simp [hempty, hreads]
  · next first rest hcons =>
    have hne : s ≠ "" := by
      intro h
      rw [h] at hcons
      cases hcons
    simp only [hne, false_or]
    split
    · next hdigit =>
      rw [String.toList_append, hcons]
      change j.Reads ('_' :: first :: rest) ↔ _
      simp [Alphabet.reads_cons_iff, Alphabet.spells_cons_iff, hdigit,
        Alphabet.continues_of_isDigit hdigit]
    · next hdigit =>
      split
      · rw [String.toList_append, hcons]
        change j.Reads (first :: (rest ++ ['_'])) ↔ _
        simp [Alphabet.reads_cons_iff, Alphabet.spells_cons_iff, hdigit]
      · simp [hcons, Alphabet.reads_cons_iff, Alphabet.spells_cons_iff, hdigit]

/-- An identifier is accepted if its text has the right characters and is no underscore. -/
theorem isIdentifier_escape_iff : j.IsIdentifier (escape s) ↔ s ≠ "_" ∧ j.Spells s.toList := by
  unfold Alphabet.IsIdentifier
  rw [reads_escape_iff, escape_mem_javaWords_iff, escape_eq_underscore_iff, not_or]
  constructor
  · rintro ⟨hreads, hempty, hne⟩
    exact ⟨hne, hreads.resolve_left hempty⟩
  · rintro ⟨hne, hspells⟩
    refine ⟨.inr hspells, ?_, hne⟩
    intro hempty
    obtain ⟨_, _, hcons, -, -⟩ := hspells
    rw [hempty] at hcons
    cases hcons

end Escape

section Names

open Text

variable {j : Alphabet} {name : String}

/-- An identifier made from a name, with the names for which Java accepts it and those for which it
is reserved. -/
structure Sanitizes (j : Alphabet) (ident : String) (accepted reserved : Prop) : Prop where
  ne_empty : ident ≠ ""
  isIdentifier_iff : j.IsIdentifier ident ↔ accepted
  mem_javaWords_iff : ident ∈ javaWords ↔ reserved

theorem sanitizes_escape (s : String) :
    Sanitizes j (escape s) (s ≠ "_" ∧ j.Spells s.toList) (s = "" ∨ s = "_") where
  ne_empty := String.isEmpty_eq_false_iff.1 (isEmpty_escape s)
  isIdentifier_iff := isIdentifier_escape_iff
  mem_javaWords_iff := escape_mem_javaWords_iff.trans escape_eq_underscore_iff

theorem Sanitizes.congr {ident : String} {accepted reserved accepted' reserved' : Prop}
    (h : Sanitizes j ident accepted reserved) (haccepted : accepted ↔ accepted')
    (hreserved : reserved ↔ reserved') : Sanitizes j ident accepted' reserved' where
  ne_empty := h.ne_empty
  isIdentifier_iff := h.isIdentifier_iff.trans haccepted
  mem_javaWords_iff := h.mem_javaWords_iff.trans hreserved

/-- The function maps ASCII letters, digits and underscores to such, and only one to underscore. -/
def KeepsWordChars (f : Char → Char) : Prop :=
  ∀ c, isWordChar c = true → isWordChar (f c) = true ∧ (f c = '_' ↔ c = '_')

theorem keepsWordChars_of {f : Char → Char} (h : ∀ n < 0x80, isWordChar (Char.ofNat n) = true →
    isWordChar (f (Char.ofNat n)) = true ∧ (f (Char.ofNat n) = '_' ↔ Char.ofNat n = '_')) :
    KeepsWordChars f := fun _ hc =>
  forall_ascii (P := fun c => isWordChar c = true → isWordChar (f c) = true ∧ (f c = '_' ↔ c = '_'))
    h (lt_of_isWordChar hc) hc

theorem keepsWordChars_toLower : KeepsWordChars Char.toLower := keepsWordChars_of (by decide)

theorem keepsWordChars_toUpper : KeepsWordChars Char.toUpper := keepsWordChars_of (by decide)

/-- What a sanitizer makes of a plain name, whatever it does to the first character. -/
theorem sanitizes_mapFirst {f : Char → Char} (hf : KeepsWordChars f) (h : isPlain name = true) :
    Sanitizes j (escape (mapFirst f name)) (name ≠ "_") (name = "_") := by
  obtain ⟨hne, hall⟩ := Bool.and_eq_true_iff.1 h
  have hchars := List.all_eq_true.1 hall
  cases hcons : name.toList with
  | nil =>
    rw [String.toList_eq_nil_iff.1 hcons] at hne
    cases hne
  | cons first rest =>
    rw [hcons] at hchars
    obtain ⟨hword, hunderscore⟩ := hf first (hchars first List.mem_cons_self)
    have hmap : (mapFirst f name).toList = f first :: rest := by
      rw [mapFirst, hcons, String.toList_ofList]
    have hspells : j.Spells (mapFirst f name).toList := by
      rw [hmap]
      refine Alphabet.spells_of_isWordChar ?_ (List.cons_ne_nil _ _)
      exact List.forall_mem_cons.2 ⟨hword, fun c hc => hchars c (List.mem_cons_of_mem first hc)⟩
    have hempty : mapFirst f name ≠ "" := by
      rw [ne_eq, ← String.toList_eq_nil_iff, hmap]
      exact List.cons_ne_nil _ _
    have hiff : mapFirst f name = "_" ↔ name = "_" := by
      rw [← String.toList_inj, ← String.toList_inj, hmap, hcons]
      change f first :: rest = ['_'] ↔ first :: rest = ['_']
      rw [List.cons.injEq, List.cons.injEq, hunderscore]
    apply (sanitizes_escape _).congr
    · simp [hiff, hspells]
    · simp [hiff, hempty]

/-- A camel-cased name has no underscore before one is put to it. -/
theorem sanitizes_cased {cased : String} (h : CasedFrom name cased) :
    Sanitizes j (escape cased) (j.Spells cased.toList)
      (∀ c ∈ name.toList, isAlphanumeric c = false) := by
  have hne : cased ≠ "_" := by
    intro heq
    apply h.underscore_notMem
    rw [heq]
    decide
  apply (sanitizes_escape cased).congr
  · simp [hne]
  · simp [hne, h.eq_empty_iff]

/-- A package segment keeps ASCII letters, digits and underscores alone. -/
theorem sanitizes_packageSegment (name : String) : Sanitizes j (packageSegment name)
    (name.toList.filter isWordChar ∉ [[], ['_']]) (name.toList.filter isWordChar ∈ [[], ['_']]) := by
  have hchars : ∀ c ∈ name.toList.filter isWordChar, isWordChar c = true :=
    fun c hc => (List.mem_filter.1 hc).2
  unfold packageSegment
  generalize name.toList.filter isWordChar = cs at hchars
  have hiff : cs.map Char.toLower = ['_'] ↔ cs = ['_'] := by
    cases cs with
    | nil => rfl
    | cons first rest =>
      simp [(keepsWordChars_toLower first (hchars first List.mem_cons_self)).2]
  have hspells : j.Spells (cs.map Char.toLower) ↔ cs ≠ [] := by
    constructor
    · rintro ⟨_, _, hcons, -⟩ rfl
      cases hcons
    · intro hne
      refine Alphabet.spells_of_isWordChar (fun c hc => ?_) (by simpa using hne)
      obtain ⟨d, hd, rfl⟩ := List.mem_map.1 hc
      exact (keepsWordChars_toLower d (hchars d hd)).1
  apply (sanitizes_escape _).congr
  · rw [ne_eq, ← String.toList_inj, String.toList_ofList]
    change ¬ cs.map Char.toLower = ['_'] ∧ _ ↔ _
    rw [hiff, hspells]
    simp [and_comm]
  · rw [← String.toList_inj, ← String.toList_inj, String.toList_ofList]
    change cs.map Char.toLower = [] ∨ cs.map Char.toLower = ['_'] ↔ _
    rw [hiff]
    simp

/-- The letters and digits of the name, in either case, are letters of Java or ASCII digits. -/
def Alphabet.Writes (j : Alphabet) (name : String) : Prop :=
  ∀ c ∈ name.toList, isAlphanumeric c = true →
    ∀ x ∈ caseForms c, j.starts x = true ∨ x.isDigit = true

theorem Alphabet.writes_of_ascii (h : ∀ c ∈ name.toList, c.toNat < 0x80) : j.Writes name := by
  intro c hc halnum x hx
  rw [isAlphanumeric_of_ascii (h c hc)] at halnum
  apply starts_or_isDigit_of_isWordChar
  exact Bool.or_eq_true_iff.2 (.inl (isAlphanum_of_mem_caseForms halnum hx))

/-- Such a name is accepted if it has a letter or digit at all. -/
theorem Alphabet.Writes.spells_iff {cased : String} (h : j.Writes name)
    (hcased : CasedFrom name cased) :
    j.Spells cased.toList ↔ ∃ c ∈ name.toList, isAlphanumeric c = true := by
  have hstarts : ∀ x ∈ cased.toList, j.starts x = true ∨ x.isDigit = true := by
    intro x hx
    obtain ⟨c, hc, halnum, hform⟩ := hcased.forms x hx
    exact h c hc halnum x hform
  have hexists : (∃ c ∈ name.toList, isAlphanumeric c = true) ↔ cased ≠ "" := by
    rw [ne_eq, hcased.eq_empty_iff]
    simp
  rw [hexists, ne_eq, ← String.toList_eq_nil_iff]
  cases hcons : cased.toList with
  | nil => simp [Spells]
  | cons first rest =>
    rw [hcons] at hstarts
    obtain ⟨hfirst, hrest⟩ := List.forall_mem_cons.1 hstarts
    have hall : rest.all j.continues = true := List.all_eq_true.2 fun x hx =>
      (hrest x hx).elim continues_of_starts continues_of_isDigit
    simp [spells_cons_iff, hfirst, hall]

/-- An identifier made from a name by a change of its first letter, or else by camel-casing. -/
structure Follows (j : Alphabet) (name ident cased : String) : Prop where
  sanitizes : Sanitizes j ident (if isPlain name then name ≠ "_" else j.Spells cased.toList)
    (if isPlain name then name = "_" else ∀ c ∈ name.toList, isAlphanumeric c = false)
  of_writes : j.Writes name → (j.IsIdentifier ident ↔
    name ≠ "_" ∧ (isPlain name = true ∨ ∃ c ∈ name.toList, isAlphanumeric c = true))

/-- The identifier that is escaped comes from the name itself if it is plain, else from its camel-
casing. -/
theorem follows_escape {f : Char → Char} {cased : String} (hf : KeepsWordChars f)
    (hcased : CasedFrom name cased) :
    Follows j name (escape (if isPlain name then mapFirst f name else cased)) cased := by
  by_cases h : isPlain name = true
  · have hplain := sanitizes_mapFirst (j := j) hf h
    constructor
    · simp only [if_pos h]
      exact hplain
    · intro _
      simp only [if_pos h]
      rw [hplain.isIdentifier_iff]
      simp [h]
  · have hother := sanitizes_cased (j := j) hcased
    constructor
    · simp only [if_neg h]
      exact hother
    · intro hwrites
      have hne : name ≠ "_" := by
        intro heq
        rw [heq] at h
        exact h (by decide)
      simp only [if_neg h]
      rw [hother.isIdentifier_iff, hwrites.spells_iff hcased]
      simp [h, hne]

/-- What Java makes of the identifiers for a name. -/
structure Sanitized (j : Alphabet) (name : String) : Prop where
  property_follows : Follows j name (ofProperty name) (lowerCamel name)
  class_follows : Follows j name (ofClass name) (upperCamel name)
  segment_sanitizes : Sanitizes j (packageSegment name)
    (name.toList.filter isWordChar ∉ [[], ['_']]) (name.toList.filter isWordChar ∈ [[], ['_']])
  writes_of_ascii : (∀ c ∈ name.toList, c.toNat < 0x80) → j.Writes name

/-- In every alphabet, no identifier for a name is empty, none is reserved but the underscore, and
any other is accepted just if it has the characters of one. -/
theorem sanitized (j : Alphabet) (name : String) : Sanitized j name where
  property_follows := follows_escape keepsWordChars_toLower (casedFrom_lowerCamel name)
  class_follows := follows_escape keepsWordChars_toUpper (casedFrom_upperCamel name)
  segment_sanitizes := sanitizes_packageSegment name
  writes_of_ascii := Alphabet.writes_of_ascii

/-- A name of one underscore keeps it, a segment that nothing is left of gets it, and a digit that
Java has no such place for stays in front. -/
theorem underscore_not_identifier :
    (ofProperty "_" = "_" ∧ ofClass "_" = "_" ∧ packageSegment "-" = "_") ∧
      (∀ j : Alphabet, ¬ j.IsIdentifier "_") ∧
      ∀ j : Alphabet, j.starts '²' = false → ¬ j.IsIdentifier (ofProperty "²") := by
  refine ⟨by decide, fun j => Alphabet.not_isIdentifier_underscore, ?_⟩
  intro j hsquare hident
  have hspelled : ofProperty "²" = "²" := by decide
  rw [hspelled] at hident
  have hreads : j.Reads ['²'] := hident.1
  have hstarts := (Alphabet.reads_cons_iff.1 hreads).1
  rw [hsquare] at hstarts
  cases hstarts

end Names

end SchemaToJava.Java.Identifier
