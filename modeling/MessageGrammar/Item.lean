import MessageGrammar.Token

/-!
# Items

What a grammar makes of a message is a sequence of items: tokens as they are, tokens grouped into a
named field, and marks for what is missing.
-/

namespace MessageGrammar

/-- One element of the result of matching. -/
inductive Item where
  /-- A matched token. -/
  | token (token : Token)
  /-- Matched tokens under the name of a field. -/
  | field (name : String) (tokens : List Token)
  /-- The mark of a field that could not be matched here. -/
  | diagnostic (label : String)
  deriving Inhabited

namespace Item

/-- Whether the item marks a missing field. -/
def isDiagnostic : Item → Bool
  | diagnostic _ => true
  | _ => false

/-- The token of a plain token item. -/
def token? : Item → Option Token
  | .token t => some t
  | _ => none

/-- The matched tokens that an item stands for. -/
def tokens : Item → List Token
  | .token t => [t]
  | field _ tokens => tokens
  | diagnostic _ => []

/-- The item as it is printed. -/
def text : Item → String
  | .token t => t.text
  | field name tokens => name ++ "=[" ++ ", ".intercalate (tokens.map Token.text) ++ "]"
  | diagnostic label => "<missing '" ++ label ++ "'>"

/-- The item as a JSON object that names its variant. -/
def json : Item → Json
  | .token t => .object [("item", .text "token"), ("token", t.json)]
  | field name tokens =>
    .object [("item", .text "field"), ("name", .text name),
      ("tokens", .array (tokens.map Token.json))]
  | diagnostic label => .object [("item", .text "diagnostic"), ("label", .text label)]

end Item

end MessageGrammar
