import SchemaToJava.Floating.Binary64

/-!
The fewest decimal digits that determine a floating-point number. A decimal determines the number
nearest to it, so the candidates are the decimals of the interval that rounds to the number. The
grids of one, two, … seventeen digits are tried in turn; the first with a point in the interval
gives the digits, the nearer point if both neighbours of the number lie in it.
-/
namespace SchemaToJava.Floating

/-- Where a number half-way between two candidates goes. -/
inductive Tie where
  | toEven
  | up
deriving DecidableEq, Repr

/-- The decimal `digits * 10 ^ power`. -/
structure Decimal where
  digits : Nat
  power : Int
deriving DecidableEq, Repr

namespace Decimal

/-- Drops one trailing zero after another, at most `fuel` of them. -/
def dropZeros : Nat → Decimal → Decimal
  | 0, x => x
  | fuel + 1, x =>
    if x.digits ≠ 0 ∧ x.digits % 10 = 0 then dropZeros fuel ⟨x.digits / 10, x.power + 1⟩ else x

def reduced (x : Decimal) : Decimal := dropZeros x.digits.log2 x

def digitChars (x : Decimal) : List Char := Nat.toDigits 10 x.digits

end Decimal

namespace Binary64

/-- The power of ten of the leading digit of a fraction that is not zero. -/
def leadingPower (num den : Nat) : Int :=
  let guess : Int := ((Nat.toDigits 10 num).length : Int) - ((Nat.toDigits 10 den).length : Int)
  if den * tenTo guess.toNat ≤ num * tenTo (-guess).toNat then guess else guess - 1

/-- The nearer of the two points of the grid of `10 ^ power` around a number that is not zero, if
one of them lies in the interval that rounds to the number. -/
def onGrid (tie : Tie) (x : Binary64) (power : Int) : Option Decimal :=
  -- quarter units of the last place, so that the ends of the interval are integers
  let (num, den) := scale 1 1 (x.exponent - 2)
  let num := num * tenTo (-power).toNat
  let den := den * tenTo power.toNat
  let value := 4 * x.significand * num
  let below := if x.significand = twoTo 52 ∧ x.exponent ≠ leastExponent then 1 else 2
  let low := (4 * x.significand - below) * num
  let high := (4 * x.significand + 2) * num
  let inside (candidate : Nat) : Bool :=
    if x.significand % 2 = 0 then low ≤ candidate * den && candidate * den ≤ high
    else low < candidate * den && candidate * den < high
  let lower := value / den
  let upper := lower + 1
  match inside lower, inside upper with
  | true, false => some ⟨lower, power⟩
  | false, true => some ⟨upper, power⟩
  | false, false => none
  | true, true =>
    match compare (2 * (value % den)) den with
    | .lt => some ⟨lower, power⟩
    | .gt => some ⟨upper, power⟩
    | .eq =>
      match tie with
      | .up => some ⟨upper, power⟩
      | .toEven => some ⟨if lower % 2 = 0 then lower else upper, power⟩

/-- The decimal with the fewest digits that determines the magnitude of a number. -/
def shortest (tie : Tie) (x : Binary64) : Decimal :=
  if x.isZero then ⟨0, 0⟩
  else
    let (num, den) := x.ratio
    let leading := leadingPower num den
    let found := (List.range 17).findSome? fun (count : Nat) => onGrid tie x (leading - count)
    (found.getD ⟨num, 0⟩).reduced

end Binary64

end SchemaToJava.Floating
