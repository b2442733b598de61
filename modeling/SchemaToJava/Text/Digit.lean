/-!
Digits of numerals in a base of at most sixteen. The letters for the digits above nine may be small
or capital.
-/
namespace SchemaToJava.Text

def digitOf? (base : Nat) (c : Char) : Option Nat :=
  let value : Option Nat :=
    if '0' ≤ c && c ≤ '9' then some (c.toNat - '0'.toNat)
    else if 'a' ≤ c && c ≤ 'f' then some (c.toNat - 'a'.toNat + 10)
    else if 'A' ≤ c && c ≤ 'F' then some (c.toNat - 'A'.toNat + 10)
    else none
  value.filter (· < base)

/-- The number that digits, at least one, denote in a base. -/
def digitsOf? (base : Nat) (cs : List Char) : Option Nat :=
  if cs.isEmpty then none
  else (cs.mapM (digitOf? base)).map (·.foldl (fun n d => n * base + d) 0)

end SchemaToJava.Text
