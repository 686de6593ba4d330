import MessageGrammar.Notation.Expression

/-!
# The notation as a grammar

Which texts are expressions is said here without a parser, by the rules of a context-free grammar:

    alternation := sequence ('|' sequence)*        item  := atom bounds?
    sequence    := priority ('&' priority)*        bounds := '[' count? (':' count?)? ']'
    priority    := item ('%' item)*
    atom        := name | missing(string) | Optional(alternation) | Drop(alternation)
                 | Tag(string, alternation) | '(' alternation ')'

White space may stand around atoms, operators, bounds, parentheses, the string and the comma of a
call, the colon, and a count that is there. Since names and bounds remember where they stand, a rule
says of two places of a text what the characters between them are.
-/

namespace MessageGrammar.Notation

/-- What may stand between two places of a text. -/
abbrev Stretch := Cursor → Cursor → Prop

/-- These characters and no others. -/
structure Spelled (text : List Char) (start stop : Cursor) : Prop where
  /-- The characters are the next ones of the text. -/
  rest : start.rest = text ++ stop.rest
  /-- The later place is as many characters further on. -/
  position : stop.position = start.position + text.length

/-- White space, perhaps none. -/
def Blanks : Stretch := fun start stop =>
  ∃ gap, Spelled gap start stop ∧ ∀ c ∈ gap, Text.isBlank c = true

/-- Something with white space around it. -/
def Padded (inner : Stretch) : Stretch := fun start stop =>
  ∃ opened closed, Blanks start opened ∧ inner opened closed ∧ Blanks closed stop

/-- A character with white space around it. -/
def Mark (c : Char) : Stretch :=
  Padded (Spelled [c])

/-- Something that need not be there. -/
inductive Maybe {α : Type} (inner : α → Stretch) : Option α → Stretch
  /-- It is not there. -/
  | absent (place : Cursor) : Maybe inner none place place
  /-- It is there. -/
  | present {a : α} {start stop : Cursor} (h : inner a start stop) : Maybe inner (some a) start stop

/-- The characters of a name: letters, digits and underscores, at first no digit. -/
def IsName (text : List Char) : Prop :=
  ∃ c others, text = c :: others ∧ Parser.startsName c = true ∧
    ∀ d ∈ others, Parser.continuesName d = true

instance : DecidablePred IsName
  | [] => isFalse fun ⟨_, _, h, _⟩ => nomatch h
  | c :: others =>
    decidable_of_iff (Parser.startsName c = true ∧ others.all Parser.continuesName = true)
      ⟨fun h => ⟨c, others, rfl, h.1, List.all_eq_true.mp h.2⟩, fun ⟨_, _, heq, h⟩ => by
        cases heq
        exact ⟨h.1, List.all_eq_true.mpr h.2⟩⟩

/-- The digits of a number in its only spelling: zero alone, or digits that do not start with
zero. -/
def IsNumeral (text : List Char) : Prop :=
  text = ['0'] ∨ ∃ c others, text = c :: others ∧ c ≠ '0' ∧ ∀ d ∈ text, d.isDigit = true

/-- A count, whose value is a word of 64 bits. -/
def Count (count : UInt64) : Stretch := fun start stop =>
  ∃ digits, Spelled digits start stop ∧ IsNumeral digits ∧ Decimal.digitsValue digits = count.toNat

/-- A colon and perhaps a count after it. -/
def Upper (high : Option UInt64) : Stretch := fun start stop =>
  ∃ place, Mark ':' start place ∧ Maybe (fun count => Padded (Count count)) high place stop

/-- Repetition bounds with their brackets. -/
def Range (bounds : Bounds) : Stretch := fun start stop =>
  ∃ opened between closed, Spelled ['['] start opened ∧
    Maybe (fun count => Padded (Count count)) bounds.low opened between ∧
    Maybe Upper bounds.high between closed ∧ Spelled [']'] closed stop ∧
    bounds.span = ⟨start.position, stop.position⟩

/-- What stands between the quotes of a string, and the text it means. Quotes and backslashes, and
only these, stand behind a backslash. -/
inductive Quoted : List Char → List Char → Prop
  /-- Nothing means nothing. -/
  | nil : Quoted [] []
  /-- Any other character means itself. -/
  | plain {c : Char} {written meant : List Char} (quote : c ≠ '"') (backslash : c ≠ '\\')
      (others : Quoted written meant) : Quoted (c :: written) (c :: meant)
  /-- A backslash is left out. -/
  | escaped {c : Char} {written meant : List Char} (special : c = '"' ∨ c = '\\')
      (others : Quoted written meant) : Quoted ('\\' :: c :: written) (c :: meant)

/-- A string in double quotes. -/
def Literal (text : String) : Stretch := fun start stop =>
  ∃ written, Spelled ('"' :: written ++ ['"']) start stop ∧ Quoted written text.toList

/-- The operators of the notation, the tightest first. -/
inductive Operator where
  /-- Choice by priority. -/
  | priority
  /-- Sequence. -/
  | sequence
  /-- Alternation. -/
  | alternation
  deriving DecidableEq

/-- The kinds of expressions, the tightest first. -/
inductive Layer where
  /-- An atom without white space around it. -/
  | bare
  /-- An atom. -/
  | atom
  /-- An atom with or without bounds. -/
  | item
  /-- Expressions with an operator between them. -/
  | chain (operator : Operator)
  deriving DecidableEq

namespace Operator

/-- The character of the operator. -/
def symbol : Operator → Char
  | priority => '%'
  | sequence => '&'
  | alternation => '|'

/-- What the operator stands between. -/
def operand : Operator → Layer
  | priority => .item
  | sequence => .chain priority
  | alternation => .chain sequence

/-- The expression of a chain. -/
def build : Operator → List Expression → Expression
  | priority => .first
  | sequence => .seq
  | alternation => .alt

/-- One element is itself, more of them are a chain. -/
def join (operator : Operator) (head : Expression) (tail : List Expression) : Expression :=
  if tail.isEmpty then head else operator.build (head :: tail)

end Operator

mutual

/-- The expressions of each kind. -/
inductive Derives : Layer → Expression → Cursor → Cursor → Prop
  /-- A name that is not called. -/
  | name {text : List Char} {start stop : Cursor} (isName : IsName text)
      (here : Spelled text start stop) :
      Derives .bare (.name (String.ofList text) ⟨start.position, stop.position⟩) start stop
  /-- `missing(string)`. -/
  | missing {label : String} {start a b c stop : Cursor}
      (modifier : Spelled "missing".toList start a) (opened : Mark '(' a b)
      (argument : Padded (Literal label) b c) (closed : Mark ')' c stop) :
      Derives .bare (.missing label) start stop
  /-- `Optional(alternation)`. -/
  | optional {inner : Expression} {start a b c stop : Cursor}
      (modifier : Spelled "Optional".toList start a) (opened : Mark '(' a b)
      (argument : Derives (.chain .alternation) inner b c) (closed : Mark ')' c stop) :
      Derives .bare (.optional inner) start stop
  /-- `Drop(alternation)`. -/
  | drop {inner : Expression} {start a b c stop : Cursor}
      (modifier : Spelled "Drop".toList start a) (opened : Mark '(' a b)
      (argument : Derives (.chain .alternation) inner b c) (closed : Mark ')' c stop) :
      Derives .bare (.drop inner) start stop
  /-- `Tag(string, alternation)`. -/
  | tag {field : String} {inner : Expression} {start a b c d e stop : Cursor}
      (modifier : Spelled "Tag".toList start a) (opened : Mark '(' a b)
      (label : Padded (Literal field) b c) (comma : Mark ',' c d)
      (argument : Derives (.chain .alternation) inner d e) (closed : Mark ')' e stop) :
      Derives .bare (.tag field inner) start stop
  /-- An expression in parentheses. -/
  | group {inner : Expression} {start a b stop : Cursor} (opened : Mark '(' start a)
      (content : Derives (.chain .alternation) inner a b) (closed : Mark ')' b stop) :
      Derives .bare inner start stop
  /-- White space around an atom. -/
  | atom {tree : Expression} {start a b stop : Cursor} (before : Blanks start a)
      (content : Derives .bare tree a b) (after : Blanks b stop) : Derives .atom tree start stop
  /-- An atom without bounds. -/
  | plain {tree : Expression} {start stop : Cursor} (content : Derives .atom tree start stop) :
      Derives .item tree start stop
  /-- An atom with bounds. -/
  | bounded {inner : Expression} {bounds : Bounds} {start a stop : Cursor}
      (content : Derives .atom inner start a) (range : Padded (Range bounds) a stop) :
      Derives .item (.bounded inner bounds) start stop
  /-- One element or more. -/
  | chain {operator : Operator} {head : Expression} {tail : List Expression}
      {start a stop : Cursor} (first : Derives operator.operand head start a)
      (others : DerivesTail operator tail a stop) :
      Derives (.chain operator) (operator.join head tail) start stop

/-- The elements of a chain behind the first one, each behind the operator. -/
inductive DerivesTail : Operator → List Expression → Cursor → Cursor → Prop
  /-- No more elements. -/
  | nil {operator : Operator} (place : Cursor) : DerivesTail operator [] place place
  /-- The operator, an element and the ones after it. -/
  | cons {operator : Operator} {head : Expression} {tail : List Expression}
      {start a b stop : Cursor} (symbol : Mark operator.symbol start a)
      (next : Derives operator.operand head a b) (others : DerivesTail operator tail b stop) :
      DerivesTail operator (head :: tail) start stop

end

/-- A whole text is an expression. -/
def Denotes (source : List Char) (tree : Expression) : Prop :=
  Derives (.chain .alternation) tree ⟨0, source⟩ ⟨source.length, []⟩

end MessageGrammar.Notation
