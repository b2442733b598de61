import SchemaToJava.Floating.Shortest

/-!
The two texts of a floating-point number. In JSON a number keeps a point or an exponent, is
positional from `0.00001` up to sixteen digits before the point, and has a signed exponent beyond.
In Java source it is always positional: an integral number with all its digits, another one with
the fewest that determine it.
-/
namespace SchemaToJava.Floating

namespace Decimal

/-- The decimal written without an exponent and, when it is integral, without a point. -/
def positional (x : Decimal) : List Char :=
  let digits := x.digitChars
  let places := (-x.power).toNat
  if places = 0 then digits ++ List.replicate x.power.toNat '0'
  else if places < digits.length then
    digits.take (digits.length - places) ++ '.' :: digits.drop (digits.length - places)
  else '0' :: '.' :: List.replicate (places - digits.length) '0' ++ digits

/-- The power of ten of the leading digit. -/
def leading (x : Decimal) : Int := (x.digitChars.length : Int) - 1 + x.power

/-- The decimal written with one digit before the point and a signed exponent. -/
def scientific (x : Decimal) : List Char :=
  let mantissa :=
    match x.digitChars with
    | first :: second :: rest => first :: '.' :: second :: rest
    | digits => digits
  let sign := if x.leading < 0 then '-' else '+'
  mantissa ++ 'e' :: sign :: Nat.toDigits 10 x.leading.natAbs

end Decimal

namespace Binary64

def signed (x : Binary64) (magnitude : List Char) : String :=
  String.ofList (if x.negative then '-' :: magnitude else magnitude)

def jsonText (x : Binary64) : String :=
  let decimal := x.shortest .toEven
  x.signed <|
    if x.isZero then ['0', '.', '0']
    else if -5 ≤ decimal.leading ∧ decimal.leading < 16 then
      if 0 ≤ decimal.power then decimal.positional ++ ['.', '0'] else decimal.positional
    else decimal.scientific

/-- The literal of a number in Java source. -/
def javaText (x : Binary64) : String :=
  x.signed <|
    match x.toInt? with
    | some i => Nat.toDigits 10 i.natAbs ++ ['.', '0']
    | none => (x.shortest .up).positional

end Binary64

end SchemaToJava.Floating
