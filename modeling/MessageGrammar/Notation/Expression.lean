import MessageGrammar.Decimal.Literal
import MessageGrammar.Notation.Parser

/-!
# Expressions

The tree of a grammar's notation as it is written, before names and bounds are looked at. From the
tightest: an atom with bounds, a chain of `%`, a chain of `&`, a chain of `|`. An atom is a name, a
call of a modifier or an expression in parentheses; a modifier's name whose call cannot be read is a
plain name.
-/

namespace MessageGrammar.Notation

/-- Repetition bounds as written. -/
structure Bounds where
  /-- The count before the colon, or the only one. -/
  low : Option UInt64
  /-- What follows the colon; absent if there is no colon. -/
  high : Option (Option UInt64)
  /-- Where the bounds stand, brackets included. -/
  span : Span
  deriving DecidableEq, Repr

/-- A notation as written. -/
inductive Expression where
  /-- A name and where it stands. -/
  | name (text : String) (span : Span)
  /-- A missing field. -/
  | missing (label : String)
  /-- An optional expression. -/
  | optional (inner : Expression)
  /-- An expression without items. -/
  | drop (inner : Expression)
  /-- An expression as a named field. -/
  | tag (name : String) (inner : Expression)
  /-- An expression with repetition bounds. -/
  | bounded (inner : Expression) (bounds : Bounds)
  /-- A chain of `&`. -/
  | seq (parts : List Expression)
  /-- A chain of `|`. -/
  | alt (alternatives : List Expression)
  /-- A chain of `%`. -/
  | first (alternatives : List Expression)
  deriving Inhabited

namespace Parser

/-- The first character of a name. -/
def startsName (c : Char) : Bool :=
  c.isAlpha || c = '_'

/-- The other characters of a name. -/
def continuesName (c : Char) : Bool :=
  c.isAlphanum || c = '_'

/-- Reads a name. An attempt without a name has no expectation. -/
def identifier : Parser String := fun cursor =>
  match cursor.rest with
  | [] => ⟨none, .none⟩
  | c :: s =>
    if startsName c then
      let taken := c :: s.takeWhile continuesName
      ⟨some (String.ofList taken, cursor.skip taken.length), .none⟩
    else ⟨none, .none⟩

/-- Reads the digits of a number: a zero alone, or digits that do not start with zero. -/
def digits : Parser (List Char) := fun cursor =>
  match cursor.rest with
  | [] => ⟨none, .single cursor.position (.char '0')⟩
  | c :: s =>
    if c = '0' then ⟨some (['0'], cursor.skip 1), .none⟩
    else if c.isDigit then
      let taken := c :: s.takeWhile Char.isDigit
      ⟨some (taken, cursor.skip taken.length), .none⟩
    else ⟨none, .single cursor.position (.char '0')⟩

/-- Reads a count, which is below `2 ^ 64`. -/
def count : Parser UInt64 := do
  let start ← position
  let digits ← digits
  let stop ← position
  let value := Decimal.digitsValue digits
  if value < UInt64.size then return .ofNat value
  else fail ⟨stop, [], some ⟨start, stop⟩⟩

/-- Reads repetition bounds in brackets, with white space around them. -/
def bounds : Parser Bounds := do
  blanks
  let start ← position
  char '['
  let low ← optional (padded count)
  let high ← optional do
    mark ':'
    optional (padded count)
  char ']'
  let stop ← position
  blanks
  return ⟨low, high, ⟨start, stop⟩⟩

/-- Takes the characters of a string up to the closing quote, with the number of characters passed
over; only a quote and a backslash are escaped. -/
def unquote : List Char → Option (List Char × Nat)
  | [] => none
  | '"' :: _ => some ([], 0)
  | '\\' :: c :: s =>
    if c = '"' ∨ c = '\\' then (unquote s).map fun (text, n) => (c :: text, n + 2) else none
  | '\\' :: [] => none
  | c :: s => (unquote s).map fun (text, n) => (c :: text, n + 1)

/-- Reads a string in double quotes, with white space around it. -/
def string : Parser String :=
  padded do
    char '"'
    let text ← fun cursor => match unquote cursor.rest with
      | some (text, n) => ⟨some (String.ofList text, cursor.skip n), .none⟩
      | none => ⟨none, .none⟩
    char '"'
    return text

/-- Reads what stands between parentheses. -/
def parenthesized {α : Type} (parser : Parser α) : Parser α := do
  mark '('
  let a ← parser
  mark ')'
  return a

variable (nested : Parser Expression)

/-- Reads the rest of the call of a modifier. -/
def call (modifier : String) : Parser Expression :=
  if modifier = "missing" then Expression.missing <$> parenthesized string
  else if modifier = "Optional" then Expression.optional <$> parenthesized nested
  else if modifier = "Drop" then Expression.drop <$> parenthesized nested
  else if modifier = "Tag" then parenthesized do
    let name ← string
    mark ','
    let inner ← nested
    return .tag name inner
  else fail .none

/-- Reads a name, or a call that starts with it. -/
def named : Parser Expression := do
  let start ← position
  let text ← identifier
  let stop ← position
  orElse (call nested text) (succeed (.name text ⟨start, stop⟩))

/-- Reads a named expression or one in parentheses, with white space around it. -/
def atom : Parser Expression :=
  padded fun cursor =>
    match named nested cursor with
    | ⟨none, furthest⟩ =>
      let reply := parenthesized nested cursor
      ⟨reply.result, furthest.max reply.furthest⟩
    | reply => reply

/-- Reads an atom and the bounds behind it, if there are any. -/
def item : Parser Expression := do
  let inner ← atom nested
  match ← optional bounds with
  | some bounds => return .bounded inner bounds
  | none => return inner

/-- Reads elements with an operator between them; one element is no chain. -/
def chain (operator : Char) (build : List Expression → Expression)
    (element : Parser Expression) : Parser Expression := do
  let head ← element
  let tail ← many do
    mark operator
    element
  return if tail.isEmpty then head else build (head :: tail)

/-- Reads an expression, given how to read the expressions inside it. -/
def alternation : Parser Expression :=
  chain '|' .alt (chain '&' .seq (chain '%' .first (item nested)))

/-- Reads an expression. An expression inside another one stands after an opening parenthesis and
so has fewer characters before it than the whole. -/
def expression (cursor : Cursor) : Reply Expression :=
  alternation (fun inner =>
    if inner.rest.length < cursor.rest.length then expression inner else ⟨none, .none⟩) cursor
termination_by cursor.rest.length

/-- Reads an expression that is the whole text. -/
def whole : Parser Expression := do
  let tree ← padded expression
  endOfText
  return tree

end Parser

end MessageGrammar.Notation
