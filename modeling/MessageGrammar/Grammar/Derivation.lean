import MessageGrammar.Grammar.Basic
import MessageGrammar.Grammar.Repetition

/-!
# Derivations

A grammar gives all its readings of some tokens, in a fixed order: a sequence goes through its parts
depth first, an alternation through its alternatives in order, a repetition prefers more iterations,
and a missing field takes as many tokens as there are, then fewer. Nothing is computed before it is
asked for.

A derivation is a reading placed in a message: it says where it ends.
-/

namespace MessageGrammar

/-- Every way to leave out some of the first tokens, the fewest first. -/
def suffixes : List Token → List (List Token)
  | [] => [[]]
  | token :: rest => (token :: rest) :: suffixes rest

theorem mem_suffixes {tokens rest : List Token} : rest ∈ suffixes tokens ↔ rest <:+ tokens := by
  induction tokens with
  | nil => simp [suffixes]
  | cons token tokens ih => simp [suffixes, ih, List.suffix_cons_iff]

namespace Grammar

mutual

/-- The readings of a grammar. -/
def read : Grammar → Matcher
  | token kinds, tokens => match tokens with
    | [] => .nil
    | t :: rest => if kinds.accepts t.kind then .single ⟨[.token t], rest⟩ else .nil
  | drop inner, tokens => (read inner tokens).map Reading.dropItems
  | seq parts, tokens => readSeq parts tokens
  | alt alternatives, tokens => readAlt alternatives tokens
  | first alternatives, tokens => readFirst alternatives tokens
  | repetition inner min max, tokens =>
    Repetition.enumerate ⟨read inner, min.toNat, max.map UInt64.toNat⟩ tokens
  | missing label, tokens =>
    (Enumeration.ofList (suffixes tokens).reverse).map fun rest => ⟨[.diagnostic label], rest⟩
  | tag name inner, tokens => (read inner tokens).map (Reading.tagged name)

/-- The readings of all parts in order. -/
def readSeq : List Grammar → Matcher
  | [], tokens => .single (.empty tokens)
  | part :: parts, tokens =>
    (read part tokens).flatMap fun reading =>
      (readSeq parts reading.rest).map (Reading.after reading.items)

/-- The readings of each alternative in turn. -/
def readAlt : List Grammar → Matcher
  | [], _ => .nil
  | alternative :: others, tokens =>
    (read alternative tokens).append fun _ => readAlt others tokens

/-- The readings of the earliest alternative that has any. -/
def readFirst : List Grammar → Matcher
  | [], _ => .nil
  | alternative :: others, tokens =>
    match read alternative tokens with
    | .nil => readFirst others tokens
    | found => found

end

end Grammar

/-- Items for some tokens of a message, and where these tokens end. -/
structure Derivation where
  /-- What the tokens were taken for. -/
  items : List Item
  /-- Position of the first token that was not taken. -/
  stop : Nat
  deriving Inhabited

/-- A reading placed at a position from which there are `length` tokens to the end. -/
def Reading.place (start length : Nat) (reading : Reading) : Derivation :=
  ⟨reading.items, start + (length - reading.rest.length)⟩

/-- Position of the first diagnostic among the items. -/
def Derivation.firstDiagnostic (derivation : Derivation) : Option Nat :=
  derivation.items.findIdx? Item.isDiagnostic

namespace Grammar

/-- The derivations of a grammar from a position of a message. Positions are those of its tokens and
its end: a search begins at the first one, and no derivation ends behind the last one. A start behind
the end is no position. From there nothing is ahead, as from the end itself, so that a missing field
would still have a derivation. -/
def derivationsFrom (grammar : Grammar) (tokens : List Token) (start : Nat) :
    Enumeration Derivation :=
  let ahead := tokens.drop start
  let length := ahead.length
  (grammar.read ahead).map (Reading.place start length)

/-- The derivations of a grammar from the beginning of a message. -/
def derivations (grammar : Grammar) (tokens : List Token) : Enumeration Derivation :=
  grammar.derivationsFrom tokens 0

/-- The derivations that take the whole message. -/
def complete (grammar : Grammar) (tokens : List Token) : Enumeration Derivation :=
  let length := tokens.length
  (grammar.derivations tokens).filter (·.stop = length)

/-- The list of all derivations that take the whole message. -/
def explain (grammar : Grammar) (tokens : List Token) : List Derivation :=
  (grammar.complete tokens).toList

end Grammar

end MessageGrammar
