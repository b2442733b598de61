import Mathlib.Algebra.Order.Field.Power
import Mathlib.Data.Rat.Cast.Order
import SchemaToJava.Proofs.Endings
import SchemaToJava.Proofs.Requests
import SchemaToJava.Proofs.ShapeForm

/-!
Integers as literals. A number is written as an integer only if its value is one, and then with
exactly the digits of that value; any other number is refused. What is checked is the range of words
of 64 bits, though, and the class of integers in Java has 32: a literal fits it only if the value of
the number does.
-/
namespace SchemaToJava

open Package Schema Outcome

namespace Floating.Binary64

variable {x : Binary64}

def toRat (x : Binary64) : ℚ :=
  (if x.negative then -1 else 1) * (x.significand * 2 ^ x.exponent)

theorem ratio_pos (x : Binary64) : 0 < x.ratio.2 := by
  simp only [ratio, scale, twoTo, one_mul]
  exact Nat.two_pow_pos _

theorem magnitude_eq (x : Binary64) :
    (x.significand : ℚ) * 2 ^ x.exponent = (x.ratio.1 : ℚ) / x.ratio.2 := by
  simp only [ratio, scale, twoTo]
  obtain ⟨k, hk | hk⟩ := Int.eq_nat_or_neg x.exponent
  · simp [hk]
  · simp [hk, div_eq_mul_inv]

theorem toInt?_eq_some_iff {i : Int} : x.toInt? = some i ↔ x.toRat = i := by
  unfold toInt? toRat
  rw [magnitude_eq]
  have hpos : (x.ratio.2 : ℚ) ≠ 0 := Nat.cast_ne_zero.2 (ratio_pos x).ne'
  generalize x.ratio = r at hpos ⊢
  obtain ⟨n, d⟩ := r
  dsimp only at hpos ⊢
  by_cases hdvd : d ∣ n
  · obtain ⟨q, rfl⟩ := hdvd
    have hd : 0 < d := Nat.pos_of_ne_zero fun h => hpos (by rw [h, Nat.cast_zero])
    have hvalue : (if x.negative then -1 else 1) * (q : ℚ) =
        ((if x.negative then -(q : Int) else q : Int) : ℚ) := by
      split <;> simp
    rw [if_pos (Nat.mul_mod_right d q), Nat.mul_div_cancel_left q hd, Nat.cast_mul,
      mul_div_cancel_left₀ _ hpos, Option.some_inj, hvalue, Int.cast_inj]
  · have hmod : n % d ≠ 0 := fun h => hdvd (Nat.dvd_of_mod_eq_zero h)
    rw [if_neg hmod]
    -- A fraction that is an integer up to its sign has a denominator that divides the numerator.
    refine ⟨fun h => (Option.some_ne_none i h.symm).elim, fun h => (hdvd ?_).elim⟩
    have hsize : (n : ℚ) / d = (i.natAbs : ℚ) := by
      have hmagnitude : (0 : ℚ) ≤ n / d := div_nonneg n.cast_nonneg d.cast_nonneg
      have hsign : |if x.negative then (-1 : ℚ) else 1| = 1 := by split <;> simp
      rw [Nat.cast_natAbs, Int.cast_abs, ← h, abs_mul, hsign, one_mul, abs_of_nonneg hmagnitude]
    rw [div_eq_iff hpos] at hsize
    exact ⟨i.natAbs, by rw [Nat.mul_comm]; exact_mod_cast hsize⟩

end Floating.Binary64

namespace Json.Number

variable {n : Number} {i : Int}

def toRat : Number → ℚ
  | int i => i
  | float x => x.toRat

/-- The integers that are read from numbers of a kind: words of 64 bits, of which the least one is
not read from a floating-point number. -/
def IsRead : Number → Int → Prop
  | int _, i => -2 ^ 63 ≤ i ∧ i < 2 ^ 63
  | float _, i => -2 ^ 63 < i ∧ i < 2 ^ 63

theorem toInt?_eq_some_iff : n.toInt? = some i ↔ n.toRat = i ∧ n.IsRead i := by
  cases n with
  | int j =>
    have hword : isWord j = true ↔ -2 ^ 63 ≤ j ∧ j < 2 ^ 63 := by
      rw [isWord, Bool.and_eq_true, decide_eq_true_eq, decide_eq_true_eq]
      exact Iff.rfl
    simp only [toInt?, toRat, IsRead, Option.ite_none_right_eq_some, Option.some_inj, hword,
      Int.cast_inj]
    constructor
    · rintro ⟨hrange, rfl⟩
      exact ⟨rfl, hrange⟩
    · rintro ⟨rfl, hrange⟩
      exact ⟨hrange, rfl⟩
  | float x =>
    have hword : (-(Floating.twoTo 63 : Int) < i && i < Floating.twoTo 63) = true ↔
        -2 ^ 63 < i ∧ i < 2 ^ 63 := by
      rw [Bool.and_eq_true, decide_eq_true_eq, decide_eq_true_eq]
      exact Iff.rfl
    simp only [toInt?, toRat, IsRead, Option.filter_eq_some_iff, hword,
      Floating.Binary64.toInt?_eq_some_iff]

end Json.Number

namespace Java

open DefaultExpression EnumClass

variable {m : TypeMapper} {property : String} {n : Json.Number} {type left right : TypeShape}

def IsJavaInteger (i : Int) : Prop := -2147483648 ≤ i ∧ i ≤ 2147483647

/-- The outcome of writing a number as an integer, where integers that are not taken are refused. -/
structure WritesInteger (n : Json.Number) (Takes : Int → Prop) (refusal : GenerationError)
    (outcome : Except GenerationError String) : Prop where
  /-- A literal has the digits of the value of the number. -/
  digits : ∀ text, outcome = .ok text → ∃ i : Int, n.toRat = i ∧ Takes i ∧ text = toString i
  complete : ∀ i : Int, n.toRat = i → Takes i → outcome = .ok (toString i)
  refuses : (∀ i : Int, n.toRat = i → ¬ Takes i) → outcome = .error refusal
  /-- Whatever is written fits the class of integers just if all that is taken does. -/
  fits_iff : (∀ text, outcome = .ok text →
    ∃ i : Int, n.toRat = i ∧ IsJavaInteger i ∧ text = toString i) ↔
      ∀ i : Int, n.toRat = i → Takes i → IsJavaInteger i

def integerOutcome (refusal : GenerationError) : Option Int → Except GenerationError String
  | some i => .ok (toString i)
  | none => .error refusal

/-- A reader of integers decides how a number is written. -/
theorem writesInteger_of_iff {Takes : Int → Prop} {read : Option Int}
    (h : ∀ i, read = some i ↔ n.toRat = i ∧ Takes i) (refusal : GenerationError) :
    WritesInteger n Takes refusal (integerOutcome refusal read) := by
  cases read with
  | none =>
    have hnone : ∀ i : Int, n.toRat = i → ¬ Takes i := fun i hi ht => by
      cases (h i).2 ⟨hi, ht⟩
    exact
      { digits := fun text htext => by cases htext
        complete := fun i hi ht => (hnone i hi ht).elim
        refuses := fun _ => rfl
        fits_iff := ⟨fun _ i hi ht => (hnone i hi ht).elim, fun _ text htext => by cases htext⟩ }
  | some i =>
    obtain ⟨hi, ht⟩ := (h i).1 rfl
    have honly : ∀ {j : Int}, n.toRat = j → j = i := fun hj => Int.cast_injective (hj.symm.trans hi)
    refine ⟨?_, ?_, fun hnone => (hnone i hi ht).elim, ?_, ?_⟩
    · intro text htext
      exact ⟨i, hi, ht, (Except.ok.inj htext).symm⟩
    · rintro j hj -
      rw [honly hj]
      rfl
    · rintro hfits j hj -
      obtain ⟨k, hk, hrange, -⟩ := hfits _ rfl
      rwa [honly hj, ← honly hk]
    · intro hfits text htext
      exact ⟨i, hi, hfits i hi ht, (Except.ok.inj htext).symm⟩

def noInteger (property : String) (n : Json.Number) : GenerationError :=
  mismatch property "an integer" (.number n)

theorem writesInteger_read (property : String) (n : Json.Number) :
    WritesInteger n n.IsRead (noInteger property n)
      (integerOutcome (noInteger property n) n.toInt?) :=
  writesInteger_of_iff (fun _ => Json.Number.toInt?_eq_some_iff) _

/-- Nothing is noted in the file for a literal of an integer. -/
theorem run_scalarLiteral_integer (htype : type.base = Library.integer) (draft : Draft) :
    (scalarLiteral m property type (.number n)).run.run draft =
      (integerOutcome (noInteger property n) n.toInt?, draft) := by
  have hboolean : type.is Library.boolean = false := by
    rw [TypeShape.is, htype]
    decide
  have hinteger : type.is Library.integer = true := TypeShape.is_eq_true_iff.2 htype
  simp only [scalarLiteral, hboolean, hinteger, Bool.false_eq_true, if_false, if_true,
    Json.Value.number?, Option.bind_some]
  cases n.toInt? with
  | none => rfl
  | some i => rfl

/-- How the outcome for two alternatives comes from what they give by themselves. -/
inductive TriesBoth (property : String) (left right : TypeShape) (either : String)
    (first second : Except GenerationError String) :
    Except GenerationError (TypeShape × String) → Prop
  | left {literal : String} (h : first = .ok literal) :
    TriesBoth property left right either first second
      (.ok (left, s!"{either}.ofLeft({literal})"))
  | right {e : GenerationError} {literal : String} (hfirst : first = .error e)
      (h : second = .ok literal) :
    TriesBoth property left right either first second
      (.ok (right, s!"{either}.ofRight({literal})"))
  | neither {e e' : GenerationError} (hfirst : first = .error e) (h : second = .error e') :
    TriesBoth property left right either first second (.error (.eitherDefault property e e'))

/-- A default of two alternatives is tried for the left one and then for the right one, in one file.
-/
theorem triesBoth_resolve (m : TypeMapper) (property : String)
    (h : type.either? = some (left, right)) (value : Json.Value) (draft : Draft) : ∃ either after,
      (Drafting.reference Library.either).run.run draft = (.ok either, after) ∧
        TriesBoth property left right either
          ((scalarLiteral m property left value).run.run after).1
          ((scalarLiteral m property right value).run.run
            ((scalarLiteral m property left value).run.run after).2).1
          ((resolve m property type value).run.run draft).1 := by
  have hkeeps := (requestFrame m).keeps_reference (E := fun _ => False)
    (rfl : Library.either.isQualified = true) draft
  generalize hreference : (Drafting.reference Library.either).run.run draft = r at hkeeps ⊢
  obtain ⟨outcome, after⟩ := r
  cases outcome with
  | error e => exact (hkeeps.2 e rfl).elim
  | ok either =>
    refine ⟨either, after, rfl, ?_⟩
    simp only [resolve, h, run_bind_of_eq_ok hreference, run_tryCatch_bind]
    generalize (scalarLiteral m property left value).run.run after = first
    obtain ⟨first, between⟩ := first
    cases first with
    | ok literal => exact .left rfl
    | error e =>
      dsimp only
      generalize (scalarLiteral m property right value).run.run between = second
      obtain ⟨second, last⟩ := second
      cases second with
      | ok literal => exact .right rfl rfl
      | error e' => exact .neither rfl rfl

/-- The outcome for two alternatives, where the class of integers is one of them or both. -/
structure WritesBranch (property : String) (n : Json.Number) (left right : TypeShape)
    (either : String) (outcome : Except GenerationError (TypeShape × String)) : Prop where
  /-- A literal of the class of integers has the digits of the value of the number. -/
  digits : ∀ chosen text, outcome = .ok (chosen, text) → chosen.base = Library.integer →
    ∃ i : Int, n.toRat = i ∧ n.IsRead i ∧
      (chosen = left ∧ text = s!"{either}.ofLeft({i})" ∨
        chosen = right ∧ text = s!"{either}.ofRight({i})")
  completeLeft : left.base = Library.integer → ∀ i : Int, n.toRat = i → n.IsRead i →
    outcome = .ok (left, s!"{either}.ofLeft({i})")
  /-- The right alternative is for what the left one refuses. -/
  completeRight : right.base = Library.integer → ∀ i : Int, n.toRat = i → n.IsRead i →
    outcome = .ok (right, s!"{either}.ofRight({i})") ∨
      ∃ literal : String, outcome = .ok (left, s!"{either}.ofLeft({literal})")
  /-- A number that is not read leads to the other alternative, if that takes it, or to an error. -/
  refuses : (left.base = Library.integer ∨ right.base = Library.integer) →
    (∀ i : Int, n.toRat = i → ¬ n.IsRead i) →
      (∃ chosen text, outcome = .ok (chosen, text) ∧ chosen.base ≠ Library.integer) ∨
        ∃ first second, outcome = .error (.eitherDefault property first second) ∧
          (left.base = Library.integer → first = noInteger property n) ∧
          (right.base = Library.integer → second = noInteger property n)

/-- The alternatives of the class of integers decide for themselves. -/
theorem writesBranch_of_triesBoth {either : String} {first second : Except GenerationError String}
    {outcome : Except GenerationError (TypeShape × String)}
    (h : TriesBoth property left right either first second outcome)
    (hleft : left.base = Library.integer →
      WritesInteger n n.IsRead (noInteger property n) first)
    (hright : right.base = Library.integer →
      WritesInteger n n.IsRead (noInteger property n) second) :
    WritesBranch property n left right either outcome := by
  cases h with
  | left hfirst =>
    refine ⟨?_, ?_, fun _ _ _ _ => .inr ⟨_, rfl⟩, ?_⟩
    · intro chosen text houtcome hchosen
      obtain ⟨rfl, rfl⟩ := Prod.mk.inj (Except.ok.inj houtcome)
      obtain ⟨i, hi, hread, rfl⟩ := (hleft hchosen).digits _ hfirst
      exact ⟨i, hi, hread, .inl ⟨rfl, rfl⟩⟩
    · intro hbase i hi hread
      obtain rfl := Except.ok.inj (hfirst.symm.trans ((hleft hbase).complete i hi hread))
      rfl
    · intro _ hnone
      refine .inl ⟨left, _, rfl, fun hbase => ?_⟩
      cases hfirst.symm.trans ((hleft hbase).refuses hnone)
  | right hfirst hsecond =>
    refine ⟨?_, ?_, ?_, ?_⟩
    · intro chosen text houtcome hchosen
      obtain ⟨rfl, rfl⟩ := Prod.mk.inj (Except.ok.inj houtcome)
      obtain ⟨i, hi, hread, rfl⟩ := (hright hchosen).digits _ hsecond
      exact ⟨i, hi, hread, .inr ⟨rfl, rfl⟩⟩
    · intro hbase i hi hread
      cases hfirst.symm.trans ((hleft hbase).complete i hi hread)
    · intro hbase i hi hread
      obtain rfl := Except.ok.inj (hsecond.symm.trans ((hright hbase).complete i hi hread))
      exact .inl rfl
    · intro _ hnone
      refine .inl ⟨right, _, rfl, fun hbase => ?_⟩
      cases hsecond.symm.trans ((hright hbase).refuses hnone)
  | neither hfirst hsecond =>
    refine ⟨?_, ?_, ?_, ?_⟩
    · intro chosen text houtcome
      cases houtcome
    · intro hbase i hi hread
      cases hfirst.symm.trans ((hleft hbase).complete i hi hread)
    · intro hbase i hi hread
      cases hsecond.symm.trans ((hright hbase).complete i hi hread)
    · intro _ hnone
      refine .inr ⟨_, _, rfl, fun hbase => ?_, fun hbase => ?_⟩
      · exact Except.error.inj (hfirst.symm.trans ((hleft hbase).refuses hnone))
      · exact Except.error.inj (hsecond.symm.trans ((hright hbase).refuses hnone))

/-- What a number is written as where an integer is expected: as a default, in a file that is begun
in any way, and as the value of an element of an enum. -/
structure WritesIntegers (m : TypeMapper) (n : Json.Number) : Prop where
  alone : ∀ property {type}, type.base = Library.integer → ∀ draft,
    WritesInteger n n.IsRead (noInteger property n)
      ((literal m property type (.number n)).run.run draft).1
  branch : ∀ property {type left right}, type.either? = some (left, right) → ∀ draft,
    ∃ either outcome, ((Drafting.reference Library.either).run.run draft).1 = .ok either ∧
      ((resolve m property type (.number n)).run.run draft).1 = outcome ∧
      ((literal m property type (.number n)).run.run draft).1 = outcome.map Prod.snd ∧
      WritesBranch property n left right either outcome
  /-- The value of an element is an integer only if it is written as one. -/
  element : ∀ {e : EnumType}, e.elementType = .int →
    WritesInteger n (fun i => n = .int i ∧ n.IsRead i)
      (.mismatchedElement e.token (.number n) .int) (elementLiteral e (.number n))

theorem run_literal (value : Json.Value) (draft : Draft) :
    ((literal m property type value).run.run draft).1 =
      ((resolve m property type value).run.run draft).1.map Prod.snd := by
  rw [literal, ExceptT.run_bind, StateT.run_bind]
  generalize (resolve m property type value).run.run draft = r
  obtain ⟨outcome, after⟩ := r
  cases outcome with
  | ok resolved => rfl
  | error e => rfl

/-- The integer that a number is written as in an enum. -/
def elementInteger? : Json.Number → Option Int
  | .int i => (Json.Number.int i).toInt?
  | .float _ => none

theorem elementInteger?_eq_some_iff {i : Int} :
    elementInteger? n = some i ↔ n.toRat = i ∧ n = .int i ∧ n.IsRead i := by
  cases n with
  | int j =>
    rw [elementInteger?, Json.Number.toInt?_eq_some_iff]
    constructor
    · rintro ⟨hvalue, hread⟩
      have hvalue : (j : ℚ) = i := hvalue
      exact ⟨hvalue, by rw [Int.cast_injective hvalue], hread⟩
    · rintro ⟨hvalue, -, hread⟩
      exact ⟨hvalue, hread⟩
  | float x => simp [elementInteger?]

theorem elementLiteral_int {e : EnumType} (he : e.elementType = .int) :
    elementLiteral e (.number n) =
      integerOutcome (.mismatchedElement e.token (.number n) .int) (elementInteger? n) := by
  unfold elementLiteral
  rw [he]
  cases n with
  | float x => rfl
  | int i =>
    simp only [elementInteger?, Json.Number.toInt?]
    cases Json.isWord i with
    | false => rfl
    | true => rfl

theorem literal_integer (htype : type.base = Library.integer) (draft : Draft) :
    ((literal m property type (.number n)).run.run draft).1 =
      integerOutcome (noInteger property n) n.toInt? := by
  have heither : type.either? = none := by
    refine Option.eq_none_iff_forall_ne_some.2 fun branches hbranches => ?_
    rw [(TypeShape.either?_eq_some.1 hbranches).1] at htype
    exact absurd htype (by decide)
  have hliteral : literal m property type (.number n) =
      scalarLiteral m property type (.number n) := by
    simp only [literal, resolve, heither, bind_assoc, pure_bind, bind_pure]
  rw [hliteral, run_scalarLiteral_integer htype]

/-- Whatever is written for an integer has the digits of exactly the value of the number. It fits
the class of integers just if this value does. -/
theorem writesIntegers (m : TypeMapper) (n : Json.Number) : WritesIntegers m n where
  alone property type htype draft := by
    rw [literal_integer htype]
    exact writesInteger_read property n
  branch property type left right heither draft := by
    obtain ⟨either, after, hreference, htries⟩ :=
      triesBoth_resolve m property heither (.number n) draft
    refine ⟨either, _, congrArg Prod.fst hreference, rfl, run_literal _ draft, ?_⟩
    refine writesBranch_of_triesBoth htries (fun hbase => ?_) (fun hbase => ?_)
    · rw [run_scalarLiteral_integer hbase]
      exact writesInteger_read property n
    · rw [run_scalarLiteral_integer hbase]
      exact writesInteger_read property n
  element he := by
    rw [elementLiteral_int he]
    exact writesInteger_of_iff (fun _ => elementInteger?_eq_some_iff) _

/-- An enum of one integer that takes more than 32 bits. -/
def wideDocument : PackageDocument where
  name := "p"
  types := .ofList
    [("p:m:E", {
      object := { typeName := some "integer" }
      elements := some [{ value := .number (.int 3000000000) }] })]

/-- The literals of two numbers as defaults, one for an integer and one for two alternatives, and
those of the elements of enums. -/
def wideLiterals (package : Package) : List (Option String) × List (Option String) :=
  let written (type : TypeShape) (i : Int) : Option String :=
    ((literal ⟨package, {}, {}⟩ "x" type (.number (.int i))).run.run
      (.start {} ⟨["com", "pulumi", "p"], "Config"⟩)).1.toOption
  let alternatives := TypeShape.either (primitiveShape .bool) (primitiveShape .int)
  ([written (primitiveShape .int) 3000000000, written alternatives (-2147483649)],
    (Generation.enums package).flatMap fun e =>
      e.elements.map fun element => (elementLiteral e element.value).toOption)

/-- In a valid document, integers that Java's class of integers does not hold have literals. -/
theorem not_isJavaInteger_of_wide :
    wideDocument.validate = .ok () ∧ ∃ package, wideDocument.bind = .ok package ∧
      wideLiterals package =
        ([some "3000000000", some "Either.ofRight(-2147483649)"], [some "3000000000"]) ∧
      ¬ IsJavaInteger 3000000000 ∧ ¬ IsJavaInteger (-2147483649) := by
  have hvalid : wideDocument.validate.toOption = some () := by decide +kernel
  have hbound : wideDocument.bind.toOption.map wideLiterals =
      some ([some "3000000000", some "Either.ofRight(-2147483649)"], [some "3000000000"]) := by
    decide +kernel
  obtain ⟨package, hpackage, hliterals⟩ := Option.map_eq_some_iff.1 hbound
  refine ⟨toOption_eq_some.1 hvalid, package, toOption_eq_some.1 hpackage, hliterals, ?_, ?_⟩
  · exact fun h => absurd h.2 (by decide)
  · exact fun h => absurd h.1 (by decide)

end Java

end SchemaToJava
