import MessageGrammar.Grammar.Basic
import MessageGrammar.Notation.Expression

/-!
# Grammars from their notation

The text is first read as a whole; then names are looked up and bounds checked from left to right,
a repeated expression before its bounds. A delimiter that is named is always dropped, and upper
bounds are exclusive.
-/

namespace MessageGrammar

/-- Why a text is not the notation of a grammar. -/
inductive NotationError where
  /-- The text cannot be read beyond a place. -/
  | malformed (span : Span) (found : Option Char) (expected : List Notation.Expectation)
  /-- A name that no token class has. -/
  | unknownMatcher (name : String) (span : Span)
  /-- Bounds without a count between them. -/
  | emptyBounds (span : Span)
  deriving DecidableEq, Repr

namespace NotationError

/-- Where the error stands, in characters. -/
def span : NotationError → Span
  | malformed span _ _ => span
  | unknownMatcher _ span => span
  | emptyBounds span => span

/-- What was expected, as the end of a sentence. -/
def expectationText : List Notation.Expectation → String
  | [] => ""
  | [expected] => " but expected " ++ expected.text
  | expected =>
    " but expected one of " ++ ", ".intercalate (expected.map Notation.Expectation.text)

/-- The character found in place of what was expected. -/
def foundText : Option Char → String
  | some c => Text.quote (String.singleton c)
  | none => "end of input"

/-- The sentence that reports the error. -/
def message : NotationError → String
  | malformed span found expected =>
    "Invalid grammar at " ++ span.text ++ ": found " ++ foundText found ++
      expectationText expected
  | unknownMatcher name span => "Unknown matcher `" ++ name ++ "` at " ++ span.text
  | emptyBounds span => "Empty repetition bounds at " ++ span.text

/-- The error that reports the furthest failure in a text. A count that is too great is reported as
a whole, other failures at the character that stopped them. -/
def ofFailure (source : List Char) (failure : Notation.Failure) : NotationError :=
  match failure.excess with
  | some digits => malformed digits none failure.expected
  | none =>
    match source.drop failure.position with
    | [] => malformed ⟨source.length, source.length⟩ none failure.expected
    | c :: _ => malformed ⟨failure.position, failure.position + 1⟩ (some c) failure.expected

end NotationError

namespace Notation

/-- The repetition of a grammar within bounds. -/
def Bounds.apply (bounds : Bounds) (grammar : Grammar) : Except NotationError Grammar :=
  match bounds.low, bounds.high with
  | none, none => .error (.emptyBounds bounds.span)
  | some count, none => .ok (grammar.times count)
  | low, some none => .ok (grammar.repeated (.included (low.getD 0)) .unlimited)
  | low, some (some high) =>
    if high ≤ low.getD 0 then .error (.emptyBounds bounds.span)
    else .ok (grammar.repeated (.included (low.getD 0)) (.excluded high))

/-- The grammar of a token class by its name. -/
def matcher? (name : String) : Option Grammar :=
  (TokenClass.ofName? name).map fun
    | .delimiter => Grammar.delimiter
    | kinds => .token kinds

namespace Expression

mutual

/-- The grammar that an expression denotes. -/
def resolve : Expression → Except NotationError Grammar
  | name text span => match matcher? text with
    | some grammar => .ok grammar
    | none => .error (.unknownMatcher text span)
  | missing label => .ok (.missing label)
  | optional inner => (resolve inner).map Grammar.optional
  | drop inner => (resolve inner).map Grammar.drop
  | tag field inner => (resolve inner).map (Grammar.tag field)
  | bounded inner bounds => (resolve inner).bind bounds.apply
  | seq parts => (resolveAll parts).map Grammar.seq
  | alt alternatives => (resolveAll alternatives).map Grammar.alt
  | first alternatives => (resolveAll alternatives).map Grammar.first

/-- The grammars that some expressions denote. -/
def resolveAll : List Expression → Except NotationError (List Grammar)
  | [] => .ok []
  | expression :: others =>
    (resolve expression).bind fun grammar => (resolveAll others).map (grammar :: ·)

end

/-- The expression that a text holds. -/
def ofText (source : List Char) : Except NotationError Expression :=
  match Parser.whole ⟨0, source⟩ with
  | ⟨some (expression, _), _⟩ => .ok expression
  | ⟨none, furthest⟩ => .error (.ofFailure source furthest)

end Expression

end Notation

/-- The grammar that a text denotes. -/
def Grammar.compile (source : String) : Except NotationError Grammar :=
  (Notation.Expression.ofText source.toList).bind Notation.Expression.resolve

end MessageGrammar
