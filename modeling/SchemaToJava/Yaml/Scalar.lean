import SchemaToJava.Reading.Node
import SchemaToJava.Text.Digit
import SchemaToJava.Yaml.Token

/-!
What the scalars of a YAML text denote. A plain scalar without a tag denotes null, a truth value or
a number where it is spelled like one, and a text otherwise; a tag of the core schema asks for one
of these kinds. A reader of texts takes any scalar as it is written.
-/
namespace SchemaToJava.Yaml

open Reading Floating

def isNullWord (text : String) : Bool :=
  text == "null" || text == "Null" || text == "NULL" || text == "~"

def boolOf? (text : String) : Option Bool :=
  if text == "true" || text == "True" || text == "TRUE" then some true
  else if text == "false" || text == "False" || text == "FALSE" then some false
  else none

/-- The number that an unsigned numeral denotes. A decimal numeral has no leading zeros. -/
def natOf? : List Char → Option Nat
  | '0' :: 'x' :: cs => Text.digitsOf? 16 cs
  | '0' :: 'o' :: cs => Text.digitsOf? 8 cs
  | '0' :: 'b' :: cs => Text.digitsOf? 2 cs
  | '0' :: _ :: _ => none
  | cs => Text.digitsOf? 10 cs

/-- The integer that a numeral with or without a sign denotes. Numerals beyond 128 bits denote
none. -/
def intOf? (cs : List Char) : Option Int :=
  let i : Option Int :=
    match cs with
    | '-' :: cs => (natOf? cs).map fun n => -(n : Int)
    | '+' :: cs => (natOf? cs).map fun n => (n : Int)
    | cs => (natOf? cs).map fun n => (n : Int)
  i.filter fun i => -(twoTo 127 : Int) ≤ i && i < twoTo 128

/-- The value of a text of decimal digits and nothing else, which may be empty. -/
def decimalDigits? (cs : List Char) : Option Nat :=
  if cs.all Char.isDigit then some (cs.foldl (fun n d => n * 10 + (d.toNat - '0'.toNat)) 0)
  else none

/-- The power of ten after a significand, which is zero if there is nothing. -/
def powerOf? : List Char → Option Int
  | [] => some 0
  | e :: cs =>
    if e != 'e' && e != 'E' then none
    else
      let (negative, digits) : Bool × List Char :=
        match cs with
        | '-' :: digits => (true, digits)
        | '+' :: digits => (false, digits)
        | digits => (false, digits)
      (Text.digitsOf? 10 digits).map fun n => if negative then -(n : Int) else n

/-- The finite number that digits with or without a point and a power of ten denote. -/
def decimalOf? (negative : Bool) (cs : List Char) : Option Binary64 := do
  let whole := cs.takeWhile Char.isDigit
  let (fraction, rest) : List Char × List Char :=
    match cs.dropWhile Char.isDigit with
    | '.' :: rest => (rest.takeWhile Char.isDigit, rest.dropWhile Char.isDigit)
    | rest => ([], rest)
  if whole.isEmpty && fraction.isEmpty then none
  else
    let digits ← decimalDigits? (whole ++ fraction)
    Binary64.ofDecimal negative digits ((← powerOf? rest) - fraction.length)

/-- Whether a text spells an infinity, possibly with a sign, or no number at all. -/
def isUnbounded (cs : List Char) : Bool :=
  let magnitude : String :=
    match cs with
    | '-' :: rest | '+' :: rest => String.ofList rest
    | rest => String.ofList rest
  let text := String.ofList cs
  magnitude == ".inf" || magnitude == ".Inf" || magnitude == ".INF" ||
    text == ".nan" || text == ".NaN" || text == ".NAN"

def floatOf? (text : String) : Option Atom :=
  let cs := text.toList
  if isUnbounded cs then some .unbounded
  else
    let x :=
      match cs with
      | '-' :: cs => decimalOf? true cs
      | '+' :: cs => decimalOf? false cs
      | cs => decimalOf? false cs
    x.map fun x => .number (.float x)

/-- Whether a text is a row of digits, after a sign or none, that starts with a needless zero. -/
def hasLeadingZero (cs : List Char) : Bool :=
  let digits :=
    match cs with
    | '-' :: rest | '+' :: rest => rest
    | rest => rest
  1 < digits.length && digits.head? == some '0' && digits.all Char.isDigit

/-- What an integer denotes as a value: one that fits no word of 64 bits is refused. -/
def ofInteger (i : Int) : Except Fault Atom :=
  if -(twoTo 63 : Int) ≤ i && i < twoTo 64 then .ok (.number (.int i)) else .error .mismatched

/-- What a plain scalar without a tag denotes. -/
def resolve (text : String) : Except Fault Atom :=
  if text.isEmpty || isNullWord text then .ok .null
  else
    match boolOf? text, intOf? text.toList with
    | some b, _ => .ok (.bool b)
    | none, some i => ofInteger i
    | none, none =>
      if hasLeadingZero text.toList then .ok (.string text)
      else .ok ((floatOf? text).getD (.string text))

def coreTag (kind : String) : Tag := Tag.ofString ("tag:yaml.org,2002:" ++ kind)

/-- What an optional reading denotes. -/
def orMismatch {α : Type} (x : Option α) : Except Fault α :=
  match x with
  | some x => .ok x
  | none => .error .mismatched

/-- What a scalar with a tag denotes. A tag that names a type of its own makes it no value; another
one without a meaning leaves a plain scalar as it is when it is local. -/
def resolveTagged (tag : Tag) (text : String) (style : Style) : Except Fault Atom :=
  if tag.namesType then .error .mismatched
  else if tag = coreTag "bool" then orMismatch ((boolOf? text).map .bool)
  else if tag = coreTag "int" then
    match intOf? text.toList with
    | some i => ofInteger i
    | none => .error .mismatched
  else if tag = coreTag "float" then orMismatch (floatOf? text)
  else if tag = coreTag "null" then
    if isNullWord text then .ok .null else .error .mismatched
  else if tag.isLocal && style == .plain then resolve text
  else .ok (.string text)

/-- The place of a field that a numeral without a minus sign counts as. -/
def placeOf? (value : Except Fault Atom) (text : String) : Option Nat :=
  match value with
  | .ok (.number (.int i)) => if text.toList.head? = some '-' then none else some i.toNat
  | _ => none

def scalarOf (tag : Option Tag) (text : String) (style : Style) : Scalar :=
  let value : Except Fault Atom :=
    match tag with
    | some tag => resolveTagged tag text style
    | none => if style == .plain then resolve text else .ok (.string text)
  { value
    text := .ok text
    flag :=
      if style == .plain || (style == .literal && tag == some (coreTag "bool")) then
        orMismatch (boolOf? text)
      else .error .mismatched
    absent :=
      if style != .plain then .ok false
      else
        match tag with
        | none => .ok (text.isEmpty || isNullWord text)
        | some tag =>
          if tag = coreTag "null" then
            if isNullWord text then .ok true else .error .mismatched
          else .ok false
    vacant := style == .plain && text.isEmpty
    place := placeOf? value text }

end SchemaToJava.Yaml
