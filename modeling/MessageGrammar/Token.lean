import MessageGrammar.Decimal.Literal
import MessageGrammar.Json

/-!
# Tokens of a message

A message consists of words, whole numbers, decimal numbers and delimiters. Grammars do not look at
a token's payload, only at its kind, through the classes of kinds they ask for.
-/

namespace MessageGrammar

/-- What a token is, without its payload. -/
inductive TokenKind where
  /-- A run of letters. -/
  | word
  /-- A whole number. -/
  | integer
  /-- A decimal number. -/
  | float
  /-- A mark between parts of a message. -/
  | delimiter
  deriving DecidableEq, Repr, Inhabited

/-- Name of the kind. -/
def TokenKind.name : TokenKind → String
  | word => "Word"
  | integer => "Integer"
  | float => "Float"
  | delimiter => "Delimiter"

/-- The letter that marks the kind in printed tokens. -/
def TokenKind.code : TokenKind → Char
  | word => 'W'
  | integer => 'I'
  | float => 'F'
  | delimiter => 'D'

/-- The kinds that a grammar can ask for in one place. -/
inductive TokenClass where
  /-- Words only. -/
  | word
  /-- Whole numbers only. -/
  | integer
  /-- Decimal numbers only. -/
  | float
  /-- Whole or decimal numbers. -/
  | number
  /-- Delimiters only. -/
  | delimiter
  /-- Every kind. -/
  | any
  deriving DecidableEq, Repr, Inhabited

namespace TokenClass

/-- Whether tokens of a kind belong to the class. -/
def accepts : TokenClass → TokenKind → Bool
  | word, kind => kind = .word
  | integer, kind => kind = .integer
  | float, kind => kind = .float
  | number, kind => kind = .integer || kind = .float
  | delimiter, kind => kind = .delimiter
  | any, _ => true

/-- Name of the class in the notation of grammars. -/
def name : TokenClass → String
  | word => "Word"
  | integer => "Integer"
  | float => "Float"
  | number => "Number"
  | delimiter => "Delimiter"
  | any => "Any"

/-- All classes. -/
def all : List TokenClass :=
  [word, integer, float, number, delimiter, any]

/-- The class of that name. -/
def ofName? (text : String) : Option TokenClass :=
  all.find? (·.name = text)

theorem ofName?_name (kinds : TokenClass) : ofName? kinds.name = some kinds := by
  cases kinds <;> decide

theorem name_of_ofName? {text : String} {kinds : TokenClass} (h : ofName? text = some kinds) :
    kinds.name = text := by
  simpa using List.find?_some h

end TokenClass

/-- One token of a message. -/
inductive Token where
  /-- A run of letters. -/
  | word (text : String)
  /-- A whole number. -/
  | integer (value : Int)
  /-- A decimal number. -/
  | float (value : Float)
  /-- A mark between parts of a message. -/
  | delimiter (mark : Char)
  deriving Inhabited

namespace Token

/-- What the token is. -/
def kind : Token → TokenKind
  | word _ => .word
  | integer _ => .integer
  | float _ => .float
  | delimiter _ => .delimiter

/-- Tokens of one kind with the same payload; doubles are compared as numbers, so that an absent
number differs from itself and the two zeros are the same. -/
instance : BEq Token where
  beq
    | word a, word b => a == b
    | integer a, integer b => a == b
    | float a, float b => a == b
    | delimiter a, delimiter b => a == b
    | _, _ => false

/-- The letters of a word. -/
def word? : Token → Option String
  | word text => some text
  | _ => none

/-- The value of a number; a whole number becomes the nearest double. -/
def number? : Token → Option Float
  | integer value => some (Float.ofInt value)
  | float value => some value
  | _ => none

/-- Whether the token is a whole or a decimal number. -/
def isNumber (token : Token) : Bool :=
  TokenClass.number.accepts token.kind

/-- Whether the token is a delimiter. -/
def isDelimiter (token : Token) : Bool :=
  TokenClass.delimiter.accepts token.kind

/-- Doubles in printed tokens: an exponent below `0.0001` and from `1e16` up, without a plus sign;
of two equally near texts the greater one. -/
def floatLayout : Decimal.Layout where
  lowest := -4
  highest := 15
  plus := false
  pointZero := true
  tie := .up

/-- The payload as it is printed: words and marks in single quotes, numbers without. -/
def payload : Token → String
  | word text => "'" ++ text ++ "'"
  | integer value => toString value
  | float value => floatLayout.text value
  | delimiter mark => "'" ++ String.singleton mark ++ "'"

/-- The payload and the letter of the kind. -/
def text (token : Token) : String :=
  token.payload ++ " (" ++ String.singleton token.kind.code ++ ")"

/-- The payload as a JSON value. -/
def jsonValue : Token → Json
  | word text => .text text
  | integer value => .integer value
  | float value => .float value
  | delimiter mark => .text (String.singleton mark)

/-- Kind and payload as a JSON object. -/
def json (token : Token) : Json :=
  .object [("kind", .text token.kind.name), ("value", token.jsonValue)]

end Token

end MessageGrammar
