import MessageGrammar.Grammar.Derivation
import MessageGrammar.Token.Lexer

/-!
# Outcomes

Matching a message keeps only the derivations that take every token. The first one without a
diagnostic is the match. Otherwise each derivation stands for its first diagnostic, and the one at
the greatest position tells which field is missing, since most of the message was understood before
it; of equal positions the derivation that comes first counts. Without a derivation there is no
match.
-/

namespace MessageGrammar

/-- A field that the sender left out or got wrong. -/
structure Diagnostic where
  /-- Name of the field. -/
  label : String
  /-- Position of the mark among the items. -/
  position : Nat
  deriving DecidableEq, Repr, Inhabited

/-- The diagnostic as a sentence. -/
def Diagnostic.text (diagnostic : Diagnostic) : String :=
  "missing '" ++ diagnostic.label ++ "' at " ++ toString diagnostic.position

/-- The diagnostic as a JSON object. -/
def Diagnostic.json (diagnostic : Diagnostic) : Json :=
  .object [("label", .text diagnostic.label), ("position", .integer diagnostic.position)]

/-- What a grammar says about a whole message. -/
inductive Outcome where
  /-- Every token was understood. -/
  | matched (items : List Item)
  /-- A field is missing. -/
  | diagnostic (diagnostic : Diagnostic)
  /-- The grammar does not cover the message. -/
  | noMatch
  deriving Inhabited

namespace Outcome

/-- Whether every token was understood. -/
def isMatch : Outcome → Bool
  | matched _ => true
  | _ => false

/-- The items of a match. -/
def items? : Outcome → Option (List Item)
  | matched items => some items
  | _ => none

/-- The missing field. -/
def diagnostic? : Outcome → Option Diagnostic
  | diagnostic d => some d
  | _ => none

/-- The outcome as it is printed. -/
def text : Outcome → String
  | matched items => "[" ++ ", ".intercalate (items.map Item.text) ++ "]"
  | diagnostic d => d.text
  | noMatch => "no match"

/-- The outcome as a JSON object that names its variant. -/
def json : Outcome → Json
  | matched items =>
    .object [("outcome", .text "match"), ("result", .array (items.map Item.json))]
  | diagnostic d => .object [("outcome", .text "diagnostic"), ("result", d.json)]
  | noMatch => .object [("outcome", .text "no_match")]

end Outcome

/-- The first diagnostic among some items, `position` items after the beginning. -/
def Diagnostic.find? (position : Nat) : List Item → Option Diagnostic
  | [] => none
  | .diagnostic label :: _ => some ⟨label, position⟩
  | _ :: items => find? (position + 1) items

/-- The first diagnostic of a derivation. -/
def Derivation.diagnostic? (derivation : Derivation) : Option Diagnostic :=
  Diagnostic.find? 0 derivation.items

/-- The diagnostic further on; the earlier found one if neither is. -/
def Diagnostic.deeper (found : Option Diagnostic) (next : Diagnostic) : Diagnostic :=
  match found with
  | none => next
  | some best => if next.position ≤ best.position then best else next

/-- Looks for a derivation without a diagnostic; `found` is the deepest diagnostic so far. -/
def Outcome.select (found : Option Diagnostic) : Enumeration Derivation → Outcome
  | .nil => match found with
    | none => .noMatch
    | some best => .diagnostic best
  | .cons derivation more =>
    match derivation.diagnostic? with
    | none => .matched derivation.items
    | some next => select (some (Diagnostic.deeper found next)) (more ())

/-- What a grammar says about the tokens of a message. -/
def Grammar.parse (grammar : Grammar) (tokens : List Token) : Outcome :=
  Outcome.select none (grammar.complete tokens)

/-- What a grammar says about a message. -/
def Grammar.process (grammar : Grammar) (source : String) : Except LexError Outcome :=
  (tokenize source).map grammar.parse

end MessageGrammar
