import SchemaToJava.Floating.Power

/-!
Finite binary floating-point numbers of 64 bits, as a sign, a significand and a power of two.
Every operation computes exactly and then rounds to the nearest number, a tie to the even
significand; a result beyond the largest finite number is refused.
-/
namespace SchemaToJava.Floating

/-- The number `± significand * 2 ^ exponent`. Normal numbers have 53 significant bits; the smaller
ones share the least exponent. -/
structure Binary64 where
  negative : Bool
  significand : Nat
  exponent : Int
deriving DecidableEq, Repr, Inhabited

namespace Binary64

def leastExponent : Int := -1074

def greatestExponent : Int := 971

def scale (num den : Nat) (power : Int) : Nat × Nat :=
  (num * twoTo power.toNat, den * twoTo (-power).toNat)

/-- The nearest integer to a fraction, a tie going to the even one. -/
def roundToEven (num den : Nat) : Nat :=
  let quotient := num / den
  match compare (2 * (num % den)) den with
  | .lt => quotient
  | .gt => quotient + 1
  | .eq => if quotient % 2 = 0 then quotient else quotient + 1

/-- The exponent that leaves 53 bits before the point, or the least one. -/
def exponentFor (num den : Nat) : Int :=
  let guess : Int := (num.log2 : Int) - (den.log2 : Int) - 52
  let (n, d) := scale num den (-guess)
  max leastExponent (if n < d * twoTo 52 then guess - 1 else guess)

/-- The number nearest to a fraction with a sign, if it is not too large. -/
def ofRatio (negative : Bool) (num den : Nat) : Option Binary64 :=
  if num = 0 then some ⟨negative, 0, leastExponent⟩
  else
    let exponent := exponentFor num den
    let (n, d) := scale num den (-exponent)
    let significand := roundToEven n d
    let (significand, exponent) :=
      if significand = twoTo 53 then (twoTo 52, exponent + 1) else (significand, exponent)
    if exponent ≤ greatestExponent then some ⟨negative, significand, exponent⟩ else none

def zero (negative : Bool) : Binary64 := ⟨negative, 0, leastExponent⟩

def isZero (x : Binary64) : Bool := x.significand == 0

/-- The number nearest to an integer. Integers of 64 bits are never too large. -/
def ofInt (i : Int) : Binary64 :=
  (ofRatio (i < 0) i.natAbs 1).getD (zero false)

/-- The number nearest to `digits * 10 ^ power`. Whether it is far beyond the largest number, or far
below the smallest, shows in its first decimal place. -/
def ofDecimal (negative : Bool) (digits : Nat) (power : Int) : Option Binary64 :=
  let firstPlace : Int := (Nat.toDigits 10 digits).length + power
  if digits = 0 || firstPlace < -330 then some (zero negative)
  else if 310 < firstPlace then none
  else ofRatio negative (digits * tenTo power.toNat) (tenTo (-power).toNat)

def ratio (x : Binary64) : Nat × Nat := scale x.significand 1 x.exponent

def neg (x : Binary64) : Binary64 := { x with negative := !x.negative }

/-- The product of two magnitudes. -/
def mul (x y : Binary64) : Option Binary64 :=
  let (a, b) := x.ratio
  let (c, d) := y.ratio
  ofRatio (x.negative != y.negative) (a * c) (b * d)

def div (x y : Binary64) : Option Binary64 :=
  let (a, b) := x.ratio
  let (c, d) := y.ratio
  ofRatio (x.negative != y.negative) (a * d) (b * c)

/-- Whether two numbers have the same value. Both zeros have the value zero. -/
def sameValue (x y : Binary64) : Bool :=
  (x.isZero && y.isZero) || x == y

/-- The integer that the number is, if it is one. -/
def toInt? (x : Binary64) : Option Int :=
  let (n, d) := x.ratio
  if n % d = 0 then
    some (if x.negative then -((n / d : Nat) : Int) else ((n / d : Nat) : Int))
  else none

end Binary64

end SchemaToJava.Floating
