import MessageGrammar.Decimal.Layout

/-!
# JSON values and their text

An object keeps its members in the order in which they are written. `Json.compact` writes no blanks;
`Json.pretty` gives each element and member a line of its own, indented by two spaces per level.
Strings escape what the format requires and nothing else.
-/

namespace MessageGrammar

/-- A JSON value. -/
inductive Json where
  /-- The absent value. -/
  | null
  /-- A whole number. -/
  | integer (value : Int)
  /-- A number with a fraction; only finite ones have a JSON text. -/
  | float (value : Float)
  /-- A string. -/
  | text (value : String)
  /-- Elements in order. -/
  | array (elements : List Json)
  /-- Members in order. -/
  | object (members : List (String × Json))

namespace Json

/-- Doubles in JSON: an exponent below `0.00001` and from `1e+16` up, with its sign; of two equally
near texts the even one. -/
def floatLayout : Decimal.Layout where
  lowest := -5
  highest := 15
  plus := true
  pointZero := true
  tie := .even

/-- The characters that stand for one character of a string. -/
def escape (c : Char) : List Char :=
  if c = '"' then ['\\', '"']
  else if c = '\\' then ['\\', '\\']
  else if c = '\x08' then ['\\', 'b']
  else if c = '\x0c' then ['\\', 'f']
  else if c = '\n' then ['\\', 'n']
  else if c = '\r' then ['\\', 'r']
  else if c = '\t' then ['\\', 't']
  else if c.toNat < 0x20 then
    ['\\', 'u', '0', '0', Nat.digitChar (c.toNat / 16), Nat.digitChar (c.toNat % 16)]
  else [c]

/-- A string in double quotes. -/
def quote (text : String) : String :=
  String.ofList ('"' :: text.toList.flatMap escape ++ ['"'])

/-- A finite double by its layout; the others are `null`. -/
def floatText (x : Float) : String :=
  match Decimal.magnitude x with
  | .finite _ _ => floatLayout.text x
  | _ => "null"

mutual

/-- The text without blanks. -/
def compact : Json → String
  | null => "null"
  | integer value => toString value
  | float value => floatText value
  | text value => quote value
  | array elements => "[" ++ ",".intercalate (compactElements elements) ++ "]"
  | object members => "\x7b" ++ ",".intercalate (compactMembers members) ++ "\x7d"

/-- The texts of the elements of an array. -/
def compactElements : List Json → List String
  | [] => []
  | element :: elements => element.compact :: compactElements elements

/-- The texts of the members of an object. -/
def compactMembers : List (String × Json) → List String
  | [] => []
  | (name, value) :: members => (quote name ++ ":" ++ value.compact) :: compactMembers members

end

/-- Lines between two brackets, closed at the level `indent`; nothing between them if there are
none. -/
def block (left right : String) (indent : String) : List String → String
  | [] => left ++ right
  | lines =>
    let inner := indent ++ "  "
    left ++ "\n" ++ ",\n".intercalate (lines.map (inner ++ ·)) ++ "\n" ++ indent ++ right

mutual

/-- The indented text of a value that stands at the level `indent`. -/
def prettyAt (indent : String) : Json → String
  | null => "null"
  | integer value => toString value
  | float value => floatText value
  | text value => quote value
  | array elements => block "[" "]" indent (prettyElements (indent ++ "  ") elements)
  | object members => block "\x7b" "\x7d" indent (prettyMembers (indent ++ "  ") members)

/-- The indented texts of the elements of an array. -/
def prettyElements (indent : String) : List Json → List String
  | [] => []
  | element :: elements => element.prettyAt indent :: prettyElements indent elements

/-- The indented texts of the members of an object. -/
def prettyMembers (indent : String) : List (String × Json) → List String
  | [] => []
  | (name, value) :: members =>
    (quote name ++ ": " ++ value.prettyAt indent) :: prettyMembers indent members

end

/-- The indented text, without a line end after it. -/
def pretty (value : Json) : String :=
  value.prettyAt ""

end Json

end MessageGrammar
