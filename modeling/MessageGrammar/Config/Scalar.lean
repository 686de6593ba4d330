import MessageGrammar.Config.Value

/-!
# Written numbers and truth values

The plain values of a configuration file. Digits may be grouped by single underscores, a decimal
number has no leading zeros, whole numbers have 64 bits, and a number with a fraction or an exponent
has digits on both sides of its point.
-/

namespace MessageGrammar.Config.Scalar

/-- Digits without the underscores that group them; an underscore stands between two digits. -/
def ungroup (isDigit : Char → Bool) : List Char → Option (List Char)
  | [] => none
  | [c] => if isDigit c then some [c] else none
  | c :: '_' :: s => if isDigit c then (ungroup isDigit s).map (c :: ·) else none
  | c :: s => if isDigit c then (ungroup isDigit s).map (c :: ·) else none

/-- The value of one digit, also of a letter that stands for a digit above nine. -/
def digitValue (c : Char) : Nat :=
  if c.isDigit then c.toNat - '0'.toNat else c.toLower.toNat - 'a'.toNat + 10

/-- A whole number in digits of some base. -/
def based? (base : Nat) (s : List Char) : Option Nat :=
  let isDigit (c : Char) : Bool := c.isAlphanum && digitValue c < base
  (ungroup isDigit s).map fun digits => digits.foldl (fun n c => n * base + digitValue c) 0

/-- A whole number if it has 64 bits. -/
def inRange? (n : Int) : Option Value :=
  if Decimal.inRange n then some (.integer n) else none

/-- The digits before the point of a decimal number. -/
def whole? (s : List Char) : Option (List Char) :=
  (ungroup Char.isDigit s).filter fun digits => digits.length = 1 || digits.head? ≠ some '0'

/-- The value of an exponent: an optional sign and digits. -/
def exponent? (s : List Char) : Option Int :=
  match s with
  | '-' :: digits => (ungroup Char.isDigit digits).map fun d => -(Decimal.digitsValue d : Int)
  | '+' :: digits => (ungroup Char.isDigit digits).map fun d => Decimal.digitsValue d
  | digits => (ungroup Char.isDigit digits).map fun d => Decimal.digitsValue d

/-- A number with a fraction, an exponent or both. -/
def fractional? (s : List Char) : Option Float := do
  let isMark (c : Char) : Bool := c = 'e' || c = 'E'
  let mantissa := s.takeWhile (!isMark ·)
  let exponent ← match s.drop mantissa.length with
    | [] => some 0
    | _ :: digits => exponent? digits
  let before := mantissa.takeWhile (· ≠ '.')
  let whole ← whole? before
  let fraction ← match mantissa.drop before.length with
    | [] => some []
    | _ :: digits => ungroup Char.isDigit digits
  return Decimal.nearest (Decimal.digitsValue (whole ++ fraction)) (exponent - fraction.length)

/-- A decimal number behind its sign. Digits without a minus sign have to denote a finite number;
behind one they may also be too great, and denote minus infinity. -/
def unsigned? (negative : Bool) (s : List Char) : Option Value :=
  if s = "inf".toList then some (.float (if negative then -1.0 / 0.0 else 1.0 / 0.0))
  else if s = "nan".toList then some (.float (0.0 / 0.0))
  else if s.all fun c => c.isDigit || c = '_' then do
    let n : Int := Decimal.digitsValue (← whole? s)
    inRange? (if negative then -n else n)
  else do
    let x ← fractional? s
    if negative then return .float (-x)
    else if x.isInf then none
    else return .float x

/-- The value that a word of a configuration file denotes. -/
def ofWord? (s : List Char) : Option Value :=
  match s with
  | '0' :: 'x' :: digits => (based? 16 digits).bind fun n => inRange? n
  | '0' :: 'o' :: digits => (based? 8 digits).bind fun n => inRange? n
  | '0' :: 'b' :: digits => (based? 2 digits).bind fun n => inRange? n
  | '-' :: digits => unsigned? true digits
  | '+' :: digits => unsigned? false digits
  | _ =>
    if s = "true".toList then some (.boolean true)
    else if s = "false".toList then some (.boolean false)
    else unsigned? false s

end MessageGrammar.Config.Scalar
