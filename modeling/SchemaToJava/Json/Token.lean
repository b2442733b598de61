import SchemaToJava.Json.Numeral
import SchemaToJava.Reading.Node
import SchemaToJava.Text.Digit
import SchemaToJava.Text.Width

/-!
The tokens of a JSON text. Scanning stops at the first place where no token can be; what is wrong
there is the last token. A string that names half of a surrogate pair and a number that is too
large are complete tokens without a value.
-/
namespace SchemaToJava.Json

open Reading

inductive Token where
  | openList
  | closeList
  | openTable
  | closeTable
  | colon
  | comma
  /-- A string. -/
  | text (s : Scalar)
  /-- Any other scalar. -/
  | atom (s : Scalar)
  /-- A string without an end, with the faults that a strict and a lax reader find. -/
  | brokenText (strict lax : Fault)
  | broken (strict lax : Fault)

def isSpace (c : Char) : Bool := c == ' ' || c == '\n' || c == '\t' || c == '\r'

def digitOf (c : Char) : Nat := c.toNat - '0'.toNat

def hexCode? (a b c d : Char) : Option Nat := Text.digitsOf? 16 [a, b, c, d]

def shortEscape? : Char → Option Char
  | '"' => some '"'
  | '\\' => some '\\'
  | '/' => some '/'
  | 'b' => some '\x08'
  | 'f' => some '\x0c'
  | 'n' => some '\n'
  | 'r' => some '\r'
  | 't' => some '\t'
  | _ => none

/-- What has been read of a string: its characters, the last one first, the first half of a
surrogate pair that waits for the second, and the first thing that spoils the string. -/
structure Quoted where
  chars : List Char := []
  lead : Option Nat := none
  flaw : Option Fault := none

namespace Quoted

def spoil (q : Quoted) (f : Fault) : Quoted := { q with flaw := some (q.flaw.getD f) }

/-- Adds a character that is no half of a pair. -/
def push (q : Quoted) (c : Char) : Quoted :=
  let q := if q.lead.isSome then q.spoil .malformed else q
  { q with chars := c :: q.chars, lead := none }

/-- Adds the code unit of a `\u` escape. -/
def pushUnit (q : Quoted) (unit : Nat) : Quoted :=
  match q.lead with
  | some lead =>
    if 0xdc00 ≤ unit ∧ unit ≤ 0xdfff then
      let code := 0x10000 + (lead - 0xd800) * 0x400 + (unit - 0xdc00)
      { q with chars := Char.ofNat code :: q.chars, lead := none }
    else { q.spoil .malformed with lead := none }
  | none =>
    if 0xd800 ≤ unit ∧ unit ≤ 0xdbff then { q with lead := some unit }
    else if 0xdc00 ≤ unit ∧ unit ≤ 0xdfff then q.spoil .malformed
    else q.push (Char.ofNat unit)

def close (q : Quoted) : Token :=
  let q := if q.lead.isSome then q.spoil .malformed else q
  match q.flaw with
  | none => .text (.ofAtom (.string (String.ofList q.chars.reverse)))
  | some f => .text (.flawed f)

def breakOff (q : Quoted) (f : Fault) : Token := .brokenText (q.flaw.getD f) f

end Quoted

/-- Scans a string after its opening quote. -/
def scanText (q : Quoted) : List Char → Token × List Char
  | [] => (q.breakOff .truncated, [])
  | '"' :: rest => (q.close, rest)
  | '\\' :: 'u' :: a :: b :: c :: d :: rest =>
    match hexCode? a b c d with
    | some unit => scanText (q.pushUnit unit) rest
    | none => (q.breakOff .malformed, [])
  | '\\' :: 'u' :: short =>
    (q.breakOff (if Text.byteCount short < 4 then .truncated else .malformed), [])
  | ['\\'] => (q.breakOff .truncated, [])
  | '\\' :: e :: rest =>
    match shortEscape? e with
    | some c => scanText (q.push c) rest
    | none => (q.breakOff .malformed, [])
  | c :: rest =>
    if c.toNat < 0x20 then (q.breakOff .malformed, []) else scanText (q.push c) rest

def scanWord (value : Atom) : (word cs : List Char) → Token × List Char
  | [], rest => (.atom (.ofAtom value), rest)
  | _ :: _, [] => (.broken .truncated .truncated, [])
  | w :: word, c :: rest =>
    if w = c then scanWord value word rest else (.broken .malformed .malformed, [])

/-- The token of a number that lacks a digit before the given rest. -/
def digitMissing (rest : List Char) : Token × List Char :=
  (.broken (if rest.isEmpty then .truncated else .malformed) .malformed, [])

def numberToken (n : Numeral) : Token :=
  .atom (match n.value with
    | some number => .ofAtom (.number number)
    | none => .flawed .malformed)

/-- Scans the power of ten of a number after the letter. -/
def scanPower (negative : Bool) (whole : List Nat) (fraction : Option (List Nat))
    (cs : List Char) : Token × List Char :=
  let (down, cs) :=
    match cs with
    | '+' :: rest => (false, rest)
    | '-' :: rest => (true, rest)
    | _ => (false, cs)
  let digits := cs.takeWhile Char.isDigit
  let rest := cs.dropWhile Char.isDigit
  if digits.isEmpty then digitMissing rest
  else
    let power : Int := digits.foldl (fun n c => n * 10 + digitOf c) 0
    (numberToken ⟨negative, whole, fraction, some (if down then -power else power)⟩, rest)

/-- Scans what follows the digits of a number up to its power of ten. -/
def scanTail (negative : Bool) (whole : List Nat) (fraction : Option (List Nat))
    (cs : List Char) : Token × List Char :=
  match cs with
  | 'e' :: rest => scanPower negative whole fraction rest
  | 'E' :: rest => scanPower negative whole fraction rest
  | _ => (numberToken ⟨negative, whole, fraction, none⟩, cs)

/-- Scans a number after the digits before its point. -/
def scanFraction (negative : Bool) (whole : List Nat) (cs : List Char) : Token × List Char :=
  match cs with
  | '.' :: rest =>
    let digits := rest.takeWhile Char.isDigit
    let after := rest.dropWhile Char.isDigit
    if digits.isEmpty then digitMissing after
    else scanTail negative whole (some (digits.map digitOf)) after
  | _ => scanTail negative whole none cs

def scanNumber (negative : Bool) (first : Char) (rest : List Char) : Token × List Char :=
  if first = '0' then
    if rest.head?.any Char.isDigit then (.broken .malformed .malformed, [])
    else scanFraction negative [0] rest
  else
    let digits := first :: rest.takeWhile Char.isDigit
    scanFraction negative (digits.map digitOf) (rest.dropWhile Char.isDigit)

def scanNegative (cs : List Char) : Token × List Char :=
  match cs with
  | c :: rest => if c.isDigit then scanNumber true c rest else digitMissing cs
  | [] => digitMissing cs

def scanToken (c : Char) (rest : List Char) : Token × List Char :=
  match c with
  | '[' => (.openList, rest)
  | ']' => (.closeList, rest)
  | '{' => (.openTable, rest)
  | '}' => (.closeTable, rest)
  | ':' => (.colon, rest)
  | ',' => (.comma, rest)
  | '"' => scanText {} rest
  | 'n' => scanWord .null ['u', 'l', 'l'] rest
  | 't' => scanWord (.bool true) ['r', 'u', 'e'] rest
  | 'f' => scanWord (.bool false) ['a', 'l', 's', 'e'] rest
  | '-' => scanNegative rest
  | c => if c.isDigit then scanNumber false c rest else (.broken .malformed .malformed, [])

private theorem scanText_length (q : Quoted) (cs : List Char) :
    (scanText q cs).2.length ≤ cs.length := by
  fun_induction scanText q cs <;> simp_all <;> omega

private theorem scanWord_length (value : Atom) (word cs : List Char) :
    (scanWord value word cs).2.length ≤ cs.length := by
  fun_induction scanWord value word cs with
  | case1 rest => exact Nat.le_refl _
  | case2 w word => exact Nat.le_refl _
  | case3 rest w word ih => exact Nat.le_succ_of_le ih
  | case4 w word c rest => exact Nat.zero_le _

private theorem dropDigits_length (cs : List Char) :
    (cs.dropWhile Char.isDigit).length ≤ cs.length :=
  (List.dropWhile_sublist _).length_le

private theorem digitMissing_length (rest cs : List Char) :
    (digitMissing rest).2.length ≤ cs.length := Nat.zero_le _

private theorem scanPower_length (negative : Bool) (whole : List Nat)
    (fraction : Option (List Nat)) (cs : List Char) :
    (scanPower negative whole fraction cs).2.length ≤ cs.length := by
  unfold scanPower
  split
  next down rest hsign =>
    have hrest : rest.length ≤ cs.length := by
      split at hsign
      · obtain ⟨-, rfl⟩ := Prod.mk.inj hsign
        exact Nat.le_succ _
      · obtain ⟨-, rfl⟩ := Prod.mk.inj hsign
        exact Nat.le_succ _
      · obtain ⟨-, rfl⟩ := Prod.mk.inj hsign
        exact Nat.le_refl _
    dsimp only
    split
    · exact digitMissing_length ..
    · exact Nat.le_trans (dropDigits_length rest) hrest

private theorem scanTail_length (negative : Bool) (whole : List Nat)
    (fraction : Option (List Nat)) (cs : List Char) :
    (scanTail negative whole fraction cs).2.length ≤ cs.length := by
  unfold scanTail
  split
  · exact Nat.le_succ_of_le (scanPower_length ..)
  · exact Nat.le_succ_of_le (scanPower_length ..)
  · exact Nat.le_refl _

private theorem scanFraction_length (negative : Bool) (whole : List Nat) (cs : List Char) :
    (scanFraction negative whole cs).2.length ≤ cs.length := by
  unfold scanFraction
  split
  · dsimp only
    split
    · exact digitMissing_length ..
    · exact Nat.le_succ_of_le (Nat.le_trans (scanTail_length ..) (dropDigits_length _))
  · exact scanTail_length ..

private theorem scanNumber_length (negative : Bool) (first : Char) (rest : List Char) :
    (scanNumber negative first rest).2.length ≤ rest.length := by
  unfold scanNumber
  split
  · split
    · simp
    · exact scanFraction_length ..
  · exact Nat.le_trans (scanFraction_length ..) (dropDigits_length rest)

private theorem scanNegative_length (cs : List Char) :
    (scanNegative cs).2.length ≤ cs.length := by
  unfold scanNegative
  split
  · split
    · exact Nat.le_succ_of_le (scanNumber_length ..)
    · exact digitMissing_length ..
  · exact digitMissing_length ..

private theorem scanToken_length (c : Char) (rest : List Char) :
    (scanToken c rest).2.length ≤ rest.length := by
  unfold scanToken
  split <;> try exact Nat.le_refl _
  · exact scanText_length ..
  · exact scanWord_length ..
  · exact scanWord_length ..
  · exact scanWord_length ..
  · exact scanNegative_length ..
  · split
    · exact scanNumber_length ..
    · simp

def tokens : List Char → List Token
  | [] => []
  | c :: rest =>
    if isSpace c then tokens rest
    else
      have : (scanToken c rest).2.length ≤ rest.length := scanToken_length c rest
      (scanToken c rest).1 :: tokens (scanToken c rest).2
termination_by cs => cs.length

end SchemaToJava.Json
