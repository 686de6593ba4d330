import MessageGrammar.Grammar.Basic
import MessageGrammar.Text.Quoted

/-!
# Printed grammars

A grammar is printed in its notation. Every chain of an operator stands in parentheses, upper bounds
are exclusive, and the usual cases of dropping and repeating have a short form.
-/

namespace MessageGrammar.Grammar

/-- The decimal digits of a number. -/
def digits (n : Nat) : List Char :=
  Nat.toDigits 10 n

/-- The range of a repetition behind the repeated grammar. -/
def printBounds (min : UInt64) : Option UInt64 → List Char
  | none => '[' :: digits min.toNat ++ [':', ']']
  | some max =>
    if max = min then '[' :: digits min.toNat ++ [']']
    else '[' :: digits min.toNat ++ ':' :: digits (max.toNat + 1) ++ [']']

/-- The parts of a chain with an operator between them, in parentheses. -/
def printChain (operator : Char) (parts : List (List Char)) : List Char :=
  '(' :: [' ', operator, ' '].intercalate parts ++ [')']

/-- A quoted text. -/
def printText (text : String) : List Char :=
  (Text.quote text).toList

mutual

/-- The notation of a grammar, character by character. -/
def print : Grammar → List Char
  | token kinds => kinds.name.toList
  | drop (token .delimiter) => TokenClass.delimiter.name.toList
  | drop inner => "Drop(".toList ++ print inner ++ [')']
  | seq parts => printChain '&' (printAll parts)
  | alt alternatives => printChain '|' (printAll alternatives)
  | first alternatives => printChain '%' (printAll alternatives)
  | repetition inner min max =>
    if min = 0 ∧ max = some 1 then "Optional(".toList ++ print inner ++ [')']
    else print inner ++ printBounds min max
  | missing label => "missing(".toList ++ printText label ++ [')']
  | tag name inner => "Tag(".toList ++ printText name ++ ',' :: ' ' :: print inner ++ [')']

/-- The notation of each grammar of a list. -/
def printAll : List Grammar → List (List Char)
  | [] => []
  | grammar :: grammars => print grammar :: printAll grammars

end

/-- The notation of a grammar. -/
def text (grammar : Grammar) : String :=
  String.ofList grammar.print

end MessageGrammar.Grammar
