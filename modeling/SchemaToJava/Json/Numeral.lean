import SchemaToJava.Json.Value

/-!
The value of a number written in JSON. A whole numeral that fits a word of 64 bits is exact. Any
other becomes a floating-point number in two roundings: the leading digits that fit a word, and
then one product or quotient with a power of ten. A numeral beyond the largest number has no value.
-/
namespace SchemaToJava.Json

open Floating

/-- A numeral: its sign, the digits before and after the point, and its power of ten. -/
structure Numeral where
  negative : Bool
  whole : List Nat
  fraction : Option (List Nat)
  power : Option Int

/-- Reads digits as long as the number fits a word of 64 bits; gives the digits left over. -/
def takeFitting (significand : Nat) : List Nat → Nat × List Nat
  | [] => (significand, [])
  | d :: rest =>
    if significand * 10 + d < twoTo 64 then takeFitting (significand * 10 + d) rest
    else (significand, d :: rest)

def powerOfTen (n : Nat) : Binary64 :=
  (Binary64.ofDecimal false 1 n).getD (.zero false)

/-- Multiplies by a power of ten. A far negative power is applied in steps, at most `steps`. -/
def timesPowerOfTen (steps : Nat) (x : Binary64) (power : Int) : Option Binary64 :=
  if power.natAbs ≤ 308 then
    if 0 ≤ power then x.mul (powerOfTen power.natAbs) else x.div (powerOfTen power.natAbs)
  else if x.isZero then some x
  else if 0 ≤ power then none
  else
    match steps, x.div (powerOfTen 308) with
    | steps + 1, some quotient => timesPowerOfTen steps quotient (power + 308)
    | _, _ => none

def Numeral.value (n : Numeral) : Option Number :=
  let (significand, excess) := takeFitting 0 n.whole
  if n.fraction.isNone && n.power.isNone && excess.isEmpty &&
      (!n.negative || (0 < significand && significand ≤ twoTo 63)) then
    some (.int (if n.negative then -(significand : Int) else significand))
  else
    let fraction := n.fraction.getD []
    let (significand, ignored) := takeFitting significand fraction
    let power : Int :=
      (excess.length : Int) - ((fraction.length : Int) - ignored.length) + n.power.getD 0
    (timesPowerOfTen power.natAbs (.ofInt significand) power).map fun x =>
      .float (if n.negative then x.neg else x)

end SchemaToJava.Json
