import SchemaToJava.Java.StringLiteral
import SchemaToJava.Proofs.CodeUnits

/-!
String literals read back. Java first takes in the escapes of code units. Then a literal goes from
its quote to the first quote that no backslash takes with it, on one line. At last the sequences
that start with a backslash are replaced by what they stand for. In a literal for a text every
backslash stands before a character that it takes with it, so that none of them begins the escape of
a unit, and no quote closes the literal early.
-/
namespace SchemaToJava.Java.StringLiteral

open CodeUnit

section Reading

def isLineEnd (u : CodeUnit) : Bool := u == ofChar '\n' || u == ofChar '\r'

/-- Cuts at the quote that closes a literal. A unit is taken if it follows a backslash that is not
taken itself. -/
def untilQuote (taken : Bool) : List CodeUnit → Option (List CodeUnit × List CodeUnit)
  | [] => none
  | u :: us =>
    if isLineEnd u then none
    else if !taken && u == ofChar '"' then some ([], us)
    else
      (untilQuote (!taken && u == ofChar '\\') us).map fun (inside, rest) => (u :: inside, rest)

/-- The inside of the literal that a source starts with, and the rest of the source. -/
def token? : List CodeUnit → Option (List CodeUnit × List CodeUnit)
  | [] => none
  | u :: us => if u = ofChar '"' then untilQuote false us else none

/-- The characters that stand for others, or for themselves, after a backslash: a backspace, the
ends of lines and pages, a tab and a space, both quotes and the backslash. -/
def sequences : List (Char × Char) :=
  [('b', .ofNat 8), ('t', '\t'), ('n', '\n'), ('f', .ofNat 12), ('r', '\r'), ('s', ' '),
    ('"', '"'), (.ofNat 39, .ofNat 39), ('\\', '\\')]

def sequenceValue? (u : CodeUnit) : Option CodeUnit :=
  (sequences.find? fun entry => ofChar entry.1 == u).map fun entry => ofChar entry.2

def isOctalDigit (u : CodeUnit) : Bool := ofChar '0' ≤ u && u ≤ ofChar '7'

/-- The digits of an octal number after a backslash. A number above 255 would have a digit less. -/
def octalDigits (us : List CodeUnit) : List CodeUnit :=
  (us.takeWhile isOctalDigit).take (if us.head?.any (· ≤ ofChar '3') then 3 else 2)

/-- What stands after a backslash, as one unit, and the rest. -/
def sequence? : List CodeUnit → Option (CodeUnit × List CodeUnit)
  | [] => none
  | u :: us =>
    match sequenceValue? u with
    | some value => some (value, us)
    | none =>
      let digits := octalDigits (u :: us)
      if digits.isEmpty then none
      else
        let value := digits.foldl (fun n d => n * 8 + (d.toNat - '0'.toNat)) 0
        some (.ofNat value, (u :: us).drop digits.length)

/-- An escape sequence takes something of the source. -/
theorem length_of_sequence? {us rest : List CodeUnit} {value : CodeUnit}
    (h : sequence? us = some (value, rest)) : rest.length ≤ us.length := by
  cases us with
  | nil => cases h
  | cons u us =>
    rw [sequence?] at h
    cases hvalue : sequenceValue? u with
    | some value =>
      rw [hvalue] at h
      cases h
      exact Nat.le_succ _
    | none =>
      rw [hvalue] at h
      dsimp only at h
      by_cases hdigits : (octalDigits (u :: us)).isEmpty
      · rw [if_pos hdigits] at h
        cases h
      · rw [if_neg hdigits] at h
        cases h
        rw [List.length_drop]
        omega

def decode : List CodeUnit → Option (List CodeUnit)
  | [] => some []
  | u :: us =>
    if u = ofChar '\\' then
      match _hrest : sequence? us with
      | none => none
      | some (value, rest) => (decode rest).map (value :: ·)
    else (decode us).map (u :: ·)
termination_by us => us.length
decreasing_by
  · have := length_of_sequence? _hrest
    simp only [List.length_cons]
    omega
  · simp only [List.length_cons]
    omega

/-- The text that a source denotes which is one literal and nothing else. -/
def value? (source : List Char) : Option (List CodeUnit) :=
  (translate source).bind fun us =>
    (token? us).bind fun (inside, rest) => if rest.isEmpty then decode inside else none

end Reading

/-- How a character is written: by a backslash and a character that stands for it after one, or, if
it neither closes a literal nor has a meaning in it, by itself. -/
theorem escapeChar_cases (c : Char) :
    (∃ d, escapeChar c = ['\\', d] ∧ d ≠ 'u' ∧ d.toNat < 0x80 ∧ c.toNat < 0x80 ∧
      isLineEnd (ofChar d) = false ∧ sequenceValue? (ofChar d) = some (ofChar c)) ∨
    (escapeChar c = [c] ∧ c ≠ '"' ∧ c ≠ '\\' ∧ c ≠ '\n' ∧ c ≠ '\r') := by
  unfold escapeChar
  split
  · exact .inl ⟨'"', rfl, by decide⟩
  · exact .inl ⟨'\\', rfl, by decide⟩
  · exact .inl ⟨'n', rfl, by decide⟩
  · exact .inl ⟨'r', rfl, by decide⟩
  · exact .inl ⟨'t', rfl, by decide⟩
  · next hquote hbackslash hfeed hreturn _ => exact .inr ⟨rfl, hquote, hbackslash, hfeed, hreturn⟩

variable {c : Char} {u : CodeUnit}

/-- The units of a character that is written by itself have no meaning in a literal either. -/
theorem plain_of_mem_unitsOf (hquote : c ≠ '"') (hbackslash : c ≠ '\\') (hfeed : c ≠ '\n')
    (hreturn : c ≠ '\r') (hu : u ∈ unitsOf c) :
    u ≠ ofChar '"' ∧ isLineEnd u = false ∧ u ≠ ofChar '\\' := by
  have hne {a : Char} (ha : a.toNat < 0x80) (hc : c ≠ a) : u ≠ ofChar a := by
    rintro rfl
    exact hc ((ofChar_mem_unitsOf ha).1 hu)
  refine ⟨hne (by decide) hquote, ?_, hne (by decide) hbackslash⟩
  simp [isLineEnd, hne (a := '\n') (by decide) hfeed, hne (a := '\r') (by decide) hreturn]

theorem units_sequence {d : Char} (hd : d.toNat < 0x80) :
    units ['\\', d] = [ofChar '\\', ofChar d] := by
  refine units_of_ascii fun c hc => ?_
  simp only [List.mem_cons, List.not_mem_nil, or_false] at hc
  rcases hc with rfl | rfl
  · decide
  · exact hd

theorem translate_escapeChar (c : Char) (rest : List Char) :
    translate (escapeChar c ++ rest) = (translate rest).map (units (escapeChar c) ++ ·) := by
  rcases escapeChar_cases c with ⟨d, hescape, hu, -⟩ | ⟨hescape, -, hbackslash, -⟩
  · rw [hescape]
    exact translate_backslash_cons hu rest
  · rw [hescape]
    exact translate_append (by simpa using Ne.symm hbackslash) rest

/-- No escape of a unit is taken in from what is written for a text. -/
theorem translate_escaped (cs rest : List Char) :
    translate (cs.flatMap escapeChar ++ rest) =
      (translate rest).map (units (cs.flatMap escapeChar) ++ ·) := by
  induction cs with
  | nil => exact Option.map_id'.symm
  | cons c cs ih =>
    rw [List.flatMap_cons, List.append_assoc, translate_escapeChar, ih, Option.map_map]
    congr 1
    funext us
    simp

theorem untilQuote_plain {us rest : List CodeUnit}
    (h : ∀ u ∈ us, u ≠ ofChar '"' ∧ isLineEnd u = false ∧ u ≠ ofChar '\\') :
    untilQuote false (us ++ rest) =
      (untilQuote false rest).map fun (inside, rest) => (us ++ inside, rest) := by
  induction us with
  | nil => exact Option.map_id'.symm
  | cons u us ih =>
    obtain ⟨hquote, hline, hbackslash⟩ := h u List.mem_cons_self
    have ih := ih fun v hv => h v (List.mem_cons_of_mem u hv)
    simp only [List.cons_append, untilQuote, hline, beq_eq_false_iff_ne.2 hquote,
      beq_eq_false_iff_ne.2 hbackslash, Bool.and_false, Bool.false_eq_true, if_false, ih,
      Option.map_map]
    rfl

theorem untilQuote_sequence {u : CodeUnit} (hline : isLineEnd u = false) (rest : List CodeUnit) :
    untilQuote false (ofChar '\\' :: u :: rest) =
      (untilQuote false rest).map fun (inside, rest) => (ofChar '\\' :: u :: inside, rest) := by
  have hbackslash : isLineEnd (ofChar '\\') = false ∧ (ofChar '\\' == ofChar '"') = false := by
    decide
  simp only [untilQuote, hbackslash, hline, Bool.not_false, Bool.not_true, Bool.true_and,
    Bool.false_and, Bool.and_false, beq_self_eq_true, Bool.false_eq_true, if_false, Option.map_map]
  rfl

theorem untilQuote_escapeChar (c : Char) (rest : List CodeUnit) :
    untilQuote false (units (escapeChar c) ++ rest) =
      (untilQuote false rest).map fun (inside, rest) => (units (escapeChar c) ++ inside, rest) := by
  rcases escapeChar_cases c with ⟨d, hescape, -, hd, -, hline, -⟩ |
    ⟨hescape, hquote, hbackslash, hfeed, hreturn⟩
  · rw [hescape, units_sequence hd]
    exact untilQuote_sequence hline rest
  · rw [hescape]
    refine untilQuote_plain fun u hu => ?_
    rw [units_cons, units_nil, List.append_nil] at hu
    exact plain_of_mem_unitsOf hquote hbackslash hfeed hreturn hu

/-- What is written for a text does not close the literal. -/
theorem untilQuote_escaped (cs : List Char) (rest : List CodeUnit) :
    untilQuote false (units (cs.flatMap escapeChar) ++ ofChar '"' :: rest) =
      some (units (cs.flatMap escapeChar), rest) := by
  induction cs with
  | nil =>
    have hquote : isLineEnd (ofChar '"') = false := by decide
    simp [untilQuote, hquote]
  | cons c cs ih =>
    rw [List.flatMap_cons, units_append, List.append_assoc, untilQuote_escapeChar, ih]
    rfl

theorem decode_plain {us rest : List CodeUnit} (h : ofChar '\\' ∉ us) :
    decode (us ++ rest) = (decode rest).map (us ++ ·) := by
  induction us with
  | nil => exact Option.map_id'.symm
  | cons u us ih =>
    have hu : u ≠ ofChar '\\' := fun heq => h (heq ▸ List.mem_cons_self)
    rw [List.cons_append, decode, if_neg hu, ih fun hmem => h (List.mem_cons_of_mem u hmem),
      Option.map_map]
    rfl

/-- A character that is written for a literal is read back from it. -/
theorem decode_escapeChar (c : Char) (rest : List CodeUnit) :
    decode (units (escapeChar c) ++ rest) = (decode rest).map (unitsOf c ++ ·) := by
  rcases escapeChar_cases c with ⟨d, hescape, -, hd, hc, -, hvalue⟩ |
    ⟨hescape, -, hbackslash, -⟩
  · have hsequence : sequence? (ofChar d :: rest) = some (ofChar c, rest) := by
      rw [sequence?, hvalue]
    rw [hescape, units_sequence hd, List.cons_append, List.cons_append, List.nil_append, decode,
      if_pos rfl]
    split
    · next hnone => cases hnone.symm.trans hsequence
    · next value after hsome =>
      cases hsome.symm.trans hsequence
      rw [unitsOf_of_lt (show c.toNat < 0x10000 by omega)]
      rfl
  · rw [hescape, units_cons, units_nil, List.append_nil]
    exact decode_plain (fun hmem => hbackslash ((ofChar_mem_unitsOf (by decide)).1 hmem))

/-- What is written for a text stands for the text. -/
theorem decode_escaped (cs : List Char) :
    decode (units (cs.flatMap escapeChar)) = some (units cs) := by
  induction cs with
  | nil => rw [List.flatMap_nil, units_nil, decode]
  | cons c cs ih =>
    rw [List.flatMap_cons, units_append, decode_escapeChar, ih]
    rfl

theorem value?_ofText (s : String) : value? (ofText s).toList = some (units s.toList) := by
  have hquote : unitsOf '"' = [ofChar '"'] := unitsOf_of_lt (by decide)
  have htranslate : translate (ofText s).toList =
      some (ofChar '"' :: (units (s.toList.flatMap escapeChar) ++ [ofChar '"'])) := by
    have hend : translate ['"'] = some [ofChar '"'] := translate_eq_units (by decide)
    rw [ofText, String.toList_ofList, List.cons_append, translate_cons_of_ne (by decide),
      translate_escaped, hend, hquote]
    rfl
  rw [value?, htranslate, Option.bind_some, token?, if_pos rfl, untilQuote_escaped]
  exact decode_escaped s.toList

/-- Read by the rules of Java, the literal for a text is one literal and nothing else, and it denotes
this text and no other. -/
theorem denotes_ofText_iff (s t : String) :
    value? (ofText s).toList = some (units t.toList) ↔ t = s := by
  rw [value?_ofText, Option.some.injEq, units_inj, String.toList_inj]
  exact eq_comm

end SchemaToJava.Java.StringLiteral
