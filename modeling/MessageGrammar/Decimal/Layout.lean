import MessageGrammar.Decimal.Shortest

/-!
# Layouts of decimal numbers

The same digits are written differently in a token, in JSON and in a setting. A `Layout` holds the
decisions of one format; `Layout.text` writes a double by them.
-/

namespace MessageGrammar.Decimal

/-- The decisions of one format for doubles. -/
structure Layout where
  /-- Least exponent of the first digit that is still written without an exponent. -/
  lowest : Int
  /-- Greatest exponent of the first digit that is still written without an exponent. -/
  highest : Int
  /-- Whether a positive exponent carries a plus sign. -/
  plus : Bool
  /-- Whether a whole number keeps a point and a zero. -/
  pointZero : Bool
  /-- Which of two equally near shortest texts is written. -/
  tie : Tie

/-- Digits with the point in its place and zeros up to it. -/
def Layout.positional (layout : Layout) (number : Digits) : List Char :=
  if number.exponent < 0 then
    '0' :: '.' :: List.replicate ((-number.exponent).toNat - 1) '0' ++ number.digits
  else
    let whole := number.exponent.toNat + 1
    let fraction := number.digits.drop whole
    let integral := number.digits.take whole
    let padded := integral ++ List.replicate (whole - integral.length) '0'
    if fraction ≠ [] then padded ++ '.' :: fraction
    else if layout.pointZero then padded ++ ['.', '0']
    else padded

/-- One digit, the others after a point, and the exponent. -/
def Layout.scientific (layout : Layout) (number : Digits) : List Char :=
  let fraction := number.digits.drop 1
  let point := if fraction = [] then [] else '.' :: fraction
  let sign := if number.exponent < 0 then ['-'] else if layout.plus then ['+'] else []
  number.digits.take 1 ++ point ++ 'e' :: sign ++ Nat.toDigits 10 number.exponent.natAbs

/-- Digits in positional form inside the layout's range of exponents, else with an exponent. -/
def Layout.finite (layout : Layout) (number : Digits) : List Char :=
  if layout.lowest ≤ number.exponent ∧ number.exponent ≤ layout.highest then
    layout.positional number
  else layout.scientific number

/-- The text of any double; zero keeps its sign, the absent number has none. -/
def Layout.text (layout : Layout) (x : Float) : String :=
  let sign := if isNegative x then "-" else ""
  match magnitude x with
  | .nan => "NaN"
  | .infinite => sign ++ "inf"
  | .finite mantissa exponent =>
    sign ++ String.ofList (layout.finite (shortest layout.tie mantissa exponent))

end MessageGrammar.Decimal
