/-!
# Reading decimal numbers

A decimal literal denotes the double nearest to its exact value, ties going to the even one; a value
too great is infinity and one too small is zero. `ofText?` reads the usual spellings: an optional
sign, digits with an optional point among or around them, an optional exponent, and the names of the
special values in any case.
-/

namespace MessageGrammar.Decimal

/-- Value of a run of decimal digits. -/
def digitsValue (digits : List Char) : Nat :=
  digits.foldl (fun value c => value * 10 + (c.toNat - '0'.toNat)) 0

/-- Whether a whole number has 64 bits with a sign. -/
def inRange (value : Int) : Bool :=
  -9223372036854775808 ≤ value && value ≤ 9223372036854775807

/-- The double nearest to `mantissa * 10 ^ exponent`. The first two tests only spare the exact
computation where the answer is known from the number of digits. -/
def nearest (mantissa : Nat) (exponent : Int) : Float :=
  let width : Int := (Nat.toDigits 10 mantissa).length + exponent
  if mantissa = 0 ∨ width < -330 then 0.0
  else if 330 < width then 1.0 / 0.0
  else Float.ofScientific mantissa (exponent < 0) exponent.natAbs

/-- The double a signed literal with a fraction denotes. -/
def ofParts (negative : Bool) (whole fraction : List Char) : Float :=
  let size := nearest (digitsValue (whole ++ fraction)) (-fraction.length)
  if negative then -size else size

/-- The exponent part of a number: `e` or `E`, an optional sign and digits up to the end. -/
def exponentOf? : List Char → Option Int
  | [] => some 0
  | e :: s =>
    let (negative, digits) := match s with
      | '-' :: r => (true, r)
      | '+' :: r => (false, r)
      | r => (false, r)
    if (e = 'e' ∨ e = 'E') ∧ digits ≠ [] ∧ digits.all Char.isDigit then
      some (if negative then -(digitsValue digits : Int) else digitsValue digits)
    else none

/-- An unsigned number: digits, fraction and exponent, or the name of a special value. -/
def unsigned? (s : List Char) : Option Float :=
  let lower := String.ofList (s.map Char.toLower)
  if lower = "inf" ∨ lower = "infinity" then some (1.0 / 0.0)
  else if lower = "nan" then some (0.0 / 0.0)
  else
    let whole := s.takeWhile Char.isDigit
    let rest := s.drop whole.length
    let (fraction, rest) := match rest with
      | '.' :: r => (r.takeWhile Char.isDigit, r.dropWhile Char.isDigit)
      | r => ([], r)
    if whole = [] ∧ fraction = [] then none
    else (exponentOf? rest).map fun exponent =>
      nearest (digitsValue (whole ++ fraction)) (exponent - fraction.length)

/-- The double that a whole text denotes, if it is the text of a number. -/
def ofText? (text : String) : Option Float :=
  match text.toList with
  | '-' :: s => (unsigned? s).map (- ·)
  | '+' :: s => unsigned? s
  | s => unsigned? s

end MessageGrammar.Decimal
