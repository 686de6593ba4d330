import MessageGrammar.Span
import MessageGrammar.Text.Quoted

/-!
# Failures while reading a notation

Reading a notation tries one thing after another. What is reported in the end is the furthest of all
failed attempts; attempts that failed at the same place are reported together, as a list of what was
expected there.
-/

namespace MessageGrammar.Notation

/-- What an attempt was looking for. -/
inductive Expectation where
  /-- This character. -/
  | char (c : Char)
  /-- No more text. -/
  | endOfText
  deriving DecidableEq, Repr

namespace Expectation

/-- The expectation as it is printed. -/
def text : Expectation → String
  | char c => Text.quote (String.singleton c)
  | endOfText => "end of input"

/-- Characters come in the order of their code points, the end of the text after them. -/
def precedes : Expectation → Expectation → Bool
  | char a, char b => a < b
  | char _, endOfText => true
  | endOfText, _ => false

/-- Puts an expectation into its place among others, unless it is there. -/
def insert (new : Expectation) : List Expectation → List Expectation
  | [] => [new]
  | old :: others =>
    if new = old then old :: others
    else if new.precedes old then new :: old :: others
    else old :: insert new others

end Expectation

/-- How far some attempts came, and what they were looking for there. -/
structure Failure where
  /-- Position of the character that stopped the attempts. -/
  position : Nat
  /-- What they were looking for, in order and without repetition. -/
  expected : List Expectation
  /-- Where a count stands that is too great, if that is why an attempt failed. -/
  excess : Option Span
  deriving DecidableEq, Repr

namespace Failure

/-- No attempt failed. -/
def none : Failure :=
  ⟨0, [], .none⟩

/-- One attempt failed, looking for one thing. -/
def single (position : Nat) (expected : Expectation) : Failure :=
  ⟨position, [expected], .none⟩

/-- The further of two failures, or both together. -/
def max (a b : Failure) : Failure :=
  if a.position < b.position then b
  else if b.position < a.position then a
  else ⟨a.position, b.expected.foldr Expectation.insert a.expected, a.excess.or b.excess⟩

end Failure

end MessageGrammar.Notation
