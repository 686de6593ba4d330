/-!
# Sets of code points

Character properties are tables of closed ranges of code points.
-/

namespace MessageGrammar.Text

/-- A set of code points as closed ranges. -/
abbrev CodePoints := List (Nat × Nat)

/-- Whether some range holds the character. -/
def CodePoints.has (ranges : CodePoints) (c : Char) : Bool :=
  ranges.any fun range => range.1 ≤ c.toNat && c.toNat ≤ range.2

end MessageGrammar.Text
