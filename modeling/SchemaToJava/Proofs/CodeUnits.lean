import Mathlib.Data.List.Infix
import SchemaToJava.Text.Digit

/-!
A source as Java takes it in: as code units of UTF-16. An escape, which is a backslash, at least one
`u` and four hexadecimal digits, stands for the unit with that number, everywhere in a source. Only
a backslash that an even number of backslashes precede begins an escape. No escape reaches over the
end of a line, so a source can be taken in line by line.
-/
namespace SchemaToJava

namespace Text

variable {α : Type} {a b c : α} {cs ds : List α}

theorem pair_infix_cons_iff :
    [a, b] <:+: c :: cs ↔ (c = a ∧ cs.head? = some b) ∨ [a, b] <:+: cs := by
  rw [List.infix_cons_iff]
  apply or_congr_left
  cases cs with
  | nil => simp
  | cons d cs => simp [List.cons_prefix_cons, eq_comm]

/-- A pair in two lists is in one of them, or it is the last of the first and the first of the
second. -/
theorem pair_infix_append_iff : [a, b] <:+: cs ++ ds ↔
    [a, b] <:+: cs ∨ (cs.getLast? = some a ∧ ds.head? = some b) ∨ [a, b] <:+: ds := by
  induction cs with
  | nil => simp
  | cons c cs ih =>
    rw [List.cons_append, pair_infix_cons_iff, pair_infix_cons_iff, ih]
    cases cs with
    | nil => simp
    | cons d cs => simp only [List.cons_append, List.head?_cons, List.getLast?_cons_cons, or_assoc]

end Text

namespace Java

abbrev CodeUnit := UInt16

namespace CodeUnit

def ofChar (c : Char) : CodeUnit := .ofNat c.toNat

/-- The units of a character: itself, or a high and a low surrogate. -/
def unitsOf (c : Char) : List CodeUnit :=
  if c.toNat < 0x10000 then [ofChar c]
  else
    [.ofNat (0xD800 + (c.toNat - 0x10000) / 0x400), .ofNat (0xDC00 + (c.toNat - 0x10000) % 0x400)]

def units (cs : List Char) : List CodeUnit := cs.flatMap unitsOf

section Units

variable {c d : Char}

theorem toNat_ofChar (h : c.toNat < 0x10000) : (ofChar c).toNat = c.toNat :=
  UInt16.toNat_ofNat_of_lt' h

theorem unitsOf_of_lt (h : c.toNat < 0x10000) : unitsOf c = [ofChar c] := if_pos h

/-- The numbers of characters leave out those of surrogates. -/
theorem toNat_cases (c : Char) :
    c.toNat < 0xD800 ∨ (0xDFFF < c.toNat ∧ c.toNat < 0x110000) := c.valid

/-- The first unit tells a character with a single unit from one with two. -/
theorem unitsOf_cases (c : Char) :
    (∃ u, unitsOf c = [u] ∧ u.toNat = c.toNat ∧ (u.toNat < 0xD800 ∨ 0xDFFF < u.toNat)) ∨
      ∃ high low, unitsOf c = [high, low] ∧ high.toNat = 0xD800 + (c.toNat - 0x10000) / 0x400 ∧
        low.toNat = 0xDC00 + (c.toNat - 0x10000) % 0x400 ∧ 0x10000 ≤ c.toNat ∧
        high.toNat < 0xDC00 := by
  have hc := toNat_cases c
  by_cases hlt : c.toNat < 0x10000
  · refine .inl ⟨ofChar c, unitsOf_of_lt hlt, toNat_ofChar hlt, ?_⟩
    rw [toNat_ofChar hlt]
    omega
  · have hhigh : 0xD800 + (c.toNat - 0x10000) / 0x400 < UInt16.size := by
      change _ < 65536
      omega
    have hlow : 0xDC00 + (c.toNat - 0x10000) % 0x400 < UInt16.size := by
      change _ < 65536
      omega
    refine .inr ⟨_, _, if_neg hlt, UInt16.toNat_ofNat_of_lt' hhigh,
      UInt16.toNat_ofNat_of_lt' hlow, by omega, ?_⟩
    rw [UInt16.toNat_ofNat_of_lt' hhigh]
    omega

theorem units_of_ascii {cs : List Char} (h : ∀ c ∈ cs, c.toNat < 0x80) :
    units cs = cs.map ofChar := by
  induction cs with
  | nil => rfl
  | cons c cs ih =>
    have hc := h c List.mem_cons_self
    rw [units, List.flatMap_cons, unitsOf_of_lt (by omega), List.map_cons]
    exact congrArg _ (ih fun d hd => h d (List.mem_cons_of_mem c hd))

/-- An ASCII character is a unit of itself only. -/
theorem ofChar_mem_unitsOf {a : Char} (ha : a.toNat < 0x80) : ofChar a ∈ unitsOf c ↔ c = a := by
  have hunit : (ofChar a).toNat = a.toNat := toNat_ofChar (by omega)
  constructor
  · intro h
    rcases unitsOf_cases c with ⟨u, hu, hc, -⟩ | ⟨high, low, hu, hhigh, hlow, -⟩
    · rw [hu, List.mem_singleton] at h
      rw [h] at hunit
      exact Char.toNat_inj.1 (hc.symm.trans hunit)
    · rw [hu] at h
      simp only [List.mem_cons, List.not_mem_nil, or_false] at h
      rcases h with h | h
      · rw [h] at hunit
        omega
      · rw [h] at hunit
        omega
  · rintro rfl
    rw [unitsOf_of_lt (by omega)]
    exact List.mem_singleton_self _

/-- Where one character ends and the next one begins can be seen from the units. -/
theorem unitsOf_append_inj {us vs : List CodeUnit} (h : unitsOf c ++ us = unitsOf d ++ vs) :
    c = d ∧ us = vs := by
  rcases unitsOf_cases c with ⟨u, hu, hc, hrange⟩ | ⟨high, low, hu, hhigh, hlow, hc, hlt⟩
  · rcases unitsOf_cases d with ⟨v, hv, hd, -⟩ | ⟨high, low, hv, hhigh, -, -, hlt⟩
    · rw [hu, hv] at h
      simp only [List.cons_append, List.nil_append, List.cons.injEq] at h
      obtain ⟨rfl, rfl⟩ := h
      exact ⟨Char.toNat_inj.1 (hc.symm.trans hd), rfl⟩
    · rw [hu, hv] at h
      obtain ⟨rfl, -⟩ := List.cons.inj h
      omega
  · rcases unitsOf_cases d with ⟨v, hv, hd, hrange⟩ | ⟨high', low', hv, hhigh', hlow', hd, -⟩
    · rw [hu, hv] at h
      obtain ⟨rfl, -⟩ := List.cons.inj h
      omega
    · rw [hu, hv] at h
      simp only [List.cons_append, List.nil_append, List.cons.injEq] at h
      obtain ⟨rfl, rfl, rfl⟩ := h
      exact ⟨Char.toNat_inj.1 (by omega), rfl⟩

theorem unitsOf_ne_nil (c : Char) : unitsOf c ≠ [] := by
  unfold unitsOf
  split <;> exact List.cons_ne_nil _ _

@[simp] theorem units_nil : units [] = [] := rfl

@[simp] theorem units_cons (c : Char) (cs : List Char) :
    units (c :: cs) = unitsOf c ++ units cs := List.flatMap_cons

@[simp] theorem units_append (cs ds : List Char) : units (cs ++ ds) = units cs ++ units ds :=
  List.flatMap_append

/-- Different texts have different units. -/
theorem units_inj {cs ds : List Char} : units cs = units ds ↔ cs = ds := by
  constructor
  · intro h
    induction cs generalizing ds with
    | nil =>
      cases ds with
      | nil => rfl
      | cons d ds => exact absurd (List.append_eq_nil_iff.1 h.symm).1 (unitsOf_ne_nil d)
    | cons c cs ih =>
      cases ds with
      | nil => exact absurd (List.append_eq_nil_iff.1 h).1 (unitsOf_ne_nil c)
      | cons d ds =>
        rw [units_cons, units_cons] at h
        obtain ⟨rfl, hrest⟩ := unitsOf_append_inj h
        rw [ih hrest]
  · rintro rfl
    rfl

theorem ofChar_mem_units {a : Char} (ha : a.toNat < 0x80) {cs : List Char} :
    ofChar a ∈ units cs ↔ a ∈ cs := by
  simp only [units, List.mem_flatMap, ofChar_mem_unitsOf ha]
  exact ⟨fun ⟨c, hc, heq⟩ => heq ▸ hc, fun h => ⟨a, h, rfl⟩⟩

/-- Two ASCII characters are next to each other in the units only where they are in the text. -/
theorem pair_infix_of_units {a b : Char} (ha : a.toNat < 0x80) (hb : b.toNat < 0x80)
    {cs : List Char} (h : [ofChar a, ofChar b] <:+: units cs) : [a, b] <:+: cs := by
  induction cs with
  | nil => simp at h
  | cons c cs ih =>
    rw [units_cons, Text.pair_infix_append_iff] at h
    rcases h with hinside | ⟨hlast, hhead⟩ | hrest
    · obtain rfl := (ofChar_mem_unitsOf ha).1 (hinside.subset List.mem_cons_self)
      rw [unitsOf_of_lt (by omega)] at hinside
      exact absurd hinside.length_le (by simp)
    · obtain rfl := (ofChar_mem_unitsOf ha).1 (List.mem_of_getLast? hlast)
      refine Text.pair_infix_cons_iff.2 (.inl ⟨rfl, ?_⟩)
      cases cs with
      | nil => cases hhead
      | cons d cs =>
        rw [units_cons, List.head?_append_of_ne_nil _ (unitsOf_ne_nil d)] at hhead
        rw [(ofChar_mem_unitsOf hb).1 (List.mem_of_head? hhead), List.head?_cons]
    · exact Text.pair_infix_cons_iff.2 (.inr (ih hrest))

end Units

/-- How much of an escape has been taken in. -/
inductive Escape where
  | outside
  /-- A backslash that an even number of backslashes precede. -/
  | backslash
  /-- That backslash, and at least one `u`. -/
  | marked
  /-- All that, and one to three digits, which have the given value. -/
  | digits (count value : Nat)
deriving DecidableEq, Repr

namespace Escape

/-- What the next character of a source adds. It is refused if an escape needs a digit there. -/
def step : Escape → Char → Option (List CodeUnit × Escape)
  | .outside, c => if c = '\\' then some ([], .backslash) else some (unitsOf c, .outside)
  | .backslash, c =>
    if c = 'u' then some ([], .marked) else some (ofChar '\\' :: unitsOf c, .outside)
  | .marked, c =>
    if c = 'u' then some ([], .marked)
    else (Text.digitOf? 16 c).map fun d => ([], .digits 1 d)
  | .digits count value, c =>
    (Text.digitOf? 16 c).map fun d =>
      if count = 3 then ([.ofNat (value * 16 + d)], .outside)
      else ([], .digits (count + 1) (value * 16 + d))

/-- What is left where a source ends. No escape is left open there. -/
def finish : Escape → Option (List CodeUnit)
  | .outside => some []
  | .backslash => some [ofChar '\\']
  | .marked | .digits _ _ => none

/-- The units of the rest of a source. -/
def translate : Escape → List Char → Option (List CodeUnit)
  | state, [] => state.finish
  | state, c :: cs =>
    (state.step c).bind fun (us, next) => (next.translate cs).map (us ++ ·)

end Escape

/-- The units that a source stands for, unless an escape in it is malformed. -/
def translate (cs : List Char) : Option (List CodeUnit) := Escape.outside.translate cs

section Translation

variable {c : Char}

theorem Escape.translate_cons (state : Escape) {next : Escape} {us : List CodeUnit}
    (h : state.step c = some (us, next)) (cs : List Char) :
    state.translate (c :: cs) = (next.translate cs).map (us ++ ·) := by
  rw [Escape.translate, h, Option.bind_some]

theorem translate_cons_of_ne (h : c ≠ '\\') (cs : List Char) :
    translate (c :: cs) = (translate cs).map (unitsOf c ++ ·) :=
  Escape.translate_cons .outside (if_neg h) cs

/-- A backslash and what it is put before stand for themselves. -/
theorem translate_backslash_cons (h : c ≠ 'u') (cs : List Char) :
    translate ('\\' :: c :: cs) = (translate cs).map (units ['\\', c] ++ ·) := by
  have hfirst := Escape.translate_cons .outside (if_pos rfl) (c :: cs)
  have hsecond := Escape.translate_cons .backslash (if_neg h) cs
  unfold translate
  rw [hfirst, hsecond, Option.map_map]
  congr 1
  funext us
  simp [units, unitsOf_of_lt (show '\\'.toNat < 0x10000 by decide)]

/-- A source without a backslash stands for its own units, whatever follows it. -/
theorem translate_append {cs : List Char} (h : '\\' ∉ cs) (ds : List Char) :
    translate (cs ++ ds) = (translate ds).map (units cs ++ ·) := by
  induction cs with
  | nil =>
    rw [List.nil_append]
    exact Option.map_id'.symm
  | cons c cs ih =>
    have hc : c ≠ '\\' := fun heq => h (heq ▸ List.mem_cons_self)
    rw [List.cons_append, translate_cons_of_ne hc, ih fun hmem => h (List.mem_cons_of_mem c hmem),
      Option.map_map]
    congr 1
    funext us
    simp

/-- A source without backslashes stands for itself. -/
theorem translate_eq_units {cs : List Char} (h : '\\' ∉ cs) : translate cs = some (units cs) := by
  have happend := translate_append h []
  rw [List.append_nil] at happend
  rw [happend]
  exact congrArg some (List.append_nil _)

/-- The end of a line leaves no escape open. -/
theorem Escape.translate_line (state : Escape) (cs ds : List Char) :
    state.translate (cs ++ '\n' :: ds) =
      (state.translate cs).bind fun us =>
        (CodeUnit.translate ds).map fun vs => us ++ ofChar '\n' :: vs := by
  induction cs generalizing state with
  | nil =>
    cases state with
    | outside => rfl
    | backslash => rfl
    | marked => rfl
    | digits count value => rfl
  | cons c cs ih =>
    rw [List.cons_append, Escape.translate, Escape.translate]
    cases state.step c with
    | none => rfl
    | some result =>
      obtain ⟨us, state⟩ := result
      simp [ih, Option.map_bind, Option.bind_map, Function.comp_def]

theorem translate_line (cs ds : List Char) :
    translate (cs ++ '\n' :: ds) =
      (translate cs).bind fun us => (translate ds).map fun vs => us ++ ofChar '\n' :: vs :=
  Escape.outside.translate_line cs ds

/-- Without a backslash in front of a `u`, a source stands for its own units. -/
theorem Escape.translate_of_unmarked (cs : List Char) :
    (¬ ['\\', 'u'] <:+: cs → Escape.outside.translate cs = some (units cs)) ∧
      (¬ ['\\', 'u'] <:+: '\\' :: cs →
        Escape.backslash.translate cs = some (ofChar '\\' :: units cs)) := by
  induction cs with
  | nil => exact ⟨fun _ => rfl, fun _ => rfl⟩
  | cons c cs ih =>
    have hrest {ds : List Char} (h : ¬ ['\\', 'u'] <:+: ds) (hds : cs <:+: ds) :
        Escape.outside.translate cs = some (units cs) := ih.1 fun hmem => h (hmem.trans hds)
    constructor
    · intro h
      by_cases hc : c = '\\'
      · subst hc
        rw [Escape.translate_cons .outside (if_pos rfl), ih.2 h]
        rfl
      · rw [Escape.translate_cons .outside (if_neg hc),
          hrest h (List.suffix_cons c cs).isInfix]
        rfl
    · intro h
      have hc : c ≠ 'u' := by
        rintro rfl
        exact h ⟨[], cs, rfl⟩
      rw [Escape.translate_cons .backslash (if_neg hc),
        hrest h ⟨['\\', c], [], by simp⟩]
      rfl

/-- Where no backslash is followed by `u`, nothing is taken for an escape. -/
theorem translate_of_unmarked {cs : List Char} (h : ¬ ['\\', 'u'] <:+: cs) :
    translate cs = some (units cs) := (Escape.translate_of_unmarked cs).1 h

/-- Behind two backslashes nothing is taken for an escape, and a short one is refused. -/
example : translate "\\u0041\\\\u0041".toList = some (units "A\\\\u0041".toList) ∧
    translate "\\u004".toList = none := by decide

end Translation

end CodeUnit

end Java

end SchemaToJava
