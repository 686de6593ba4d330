/-!
# Spans

A half-open range of positions in a text. Lexical errors and tokens count UTF-8 bytes, notation
errors count characters; a span itself does not know its unit.
-/

namespace MessageGrammar

/-- The positions from `start` up to, not including, `stop`. -/
structure Span where
  /-- First position of the range. -/
  start : Nat
  /-- First position after the range. -/
  stop : Nat
  deriving DecidableEq, Repr, Inhabited

/-- The same range, `offset` positions later. -/
def Span.shift (span : Span) (offset : Nat) : Span :=
  ⟨span.start + offset, span.stop + offset⟩

/-- Both ends with two dots between them. -/
def Span.text (span : Span) : String :=
  toString span.start ++ ".." ++ toString span.stop

end MessageGrammar
