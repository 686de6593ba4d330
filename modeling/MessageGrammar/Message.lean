import MessageGrammar.Notation.Compilation
import MessageGrammar.Outcome

/-!
# Messages

The whole way from a grammar's notation and the text of a message to an outcome. An error in the
notation is found before the message is looked at.
-/

namespace MessageGrammar

/-- What keeps a message from being matched. -/
inductive MessageError where
  /-- The message is no sequence of tokens. -/
  | lexical (error : LexError)
  /-- The notation denotes no grammar. -/
  | grammar (error : NotationError)
  deriving DecidableEq, Repr

/-- The sentence that reports the error. -/
def MessageError.message : MessageError → String
  | lexical error => error.message
  | grammar error => error.message

/-- What a grammar, given by its notation, says about a message. -/
def processWithNotation (source message : String) : Except MessageError Outcome :=
  ((Grammar.compile source).mapError .grammar).bind fun grammar =>
    (grammar.process message).mapError .lexical

end MessageGrammar
