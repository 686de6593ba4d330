import MessageGrammar.Notation.Failure
import MessageGrammar.Text.Blank

/-!
# Parsers

A parser takes a piece of a text from a cursor on. Its reply holds the value and the cursor after
the piece, if it could be read, and in both cases the furthest failure of all attempts on the way.
Parsers are put together in order, and a parser that is optional or repeated gives back what it took
when it fails.
-/

namespace MessageGrammar.Notation

/-- A place in a text. -/
structure Cursor where
  /-- Number of characters before the place. -/
  position : Nat
  /-- The characters after it. -/
  rest : List Char
  deriving DecidableEq, Repr

/-- The place after some characters. -/
def Cursor.skip (cursor : Cursor) (count : Nat) : Cursor :=
  ⟨cursor.position + count, cursor.rest.drop count⟩

/-- What a parser says. -/
structure Reply (α : Type) where
  /-- The value read and the place after it. -/
  result : Option (α × Cursor)
  /-- The furthest failed attempt. -/
  furthest : Failure

/-- A parser of values. -/
def Parser (α : Type) : Type :=
  Cursor → Reply α

namespace Parser

variable {α β : Type}

/-- Reads nothing. -/
def succeed (a : α) : Parser α := fun cursor =>
  ⟨some (a, cursor), .none⟩

/-- Reads nothing and fails. -/
def fail (failure : Failure) : Parser α := fun _ =>
  ⟨none, failure⟩

/-- Reads a value, then what depends on it. -/
def andThen (parser : Parser α) (next : α → Parser β) : Parser β := fun cursor =>
  match parser cursor with
  | ⟨none, furthest⟩ => ⟨none, furthest⟩
  | ⟨some (a, after), furthest⟩ =>
    let reply := next a after
    ⟨reply.result, furthest.max reply.furthest⟩

instance : Monad Parser where
  pure := succeed
  bind := andThen

/-- Both parsers succeed, the second from where the first stops. -/
theorem result_andThen {parser : Parser α} {next : α → Parser β} {cursor stop : Cursor} {b : β} :
    (parser.andThen next cursor).result = some (b, stop) ↔
      ∃ a after, (parser cursor).result = some (a, after) ∧
        (next a after).result = some (b, stop) := by
  unfold andThen
  rcases parser cursor with ⟨result, furthest⟩
  cases result with
  | none => simp
  | some pair =>
    obtain ⟨a, after⟩ := pair
    constructor
    · intro h
      exact ⟨a, after, rfl, h⟩
    · rintro ⟨a', after', ha, h⟩
      cases ha
      exact h

/-- The number of characters before the cursor. -/
def position : Parser Nat := fun cursor =>
  ⟨some (cursor.position, cursor), .none⟩

/-- Takes the longest run of characters that pass a test, perhaps none. -/
def takeWhile (p : Char → Bool) : Parser (List Char) := fun cursor =>
  let taken := cursor.rest.takeWhile p
  ⟨some (taken, cursor.skip taken.length), .none⟩

/-- Passes over white space. -/
def blanks : Parser Unit := do
  let _ ← takeWhile Text.isBlank

/-- Reads this character. -/
def char (c : Char) : Parser Unit := fun cursor =>
  match cursor.rest with
  | [] => ⟨none, .single cursor.position (.char c)⟩
  | d :: _ =>
    if d = c then ⟨some ((), cursor.skip 1), .none⟩
    else ⟨none, .single cursor.position (.char c)⟩

/-- Reads the end of the text. -/
def endOfText : Parser Unit := fun cursor =>
  match cursor.rest with
  | [] => ⟨some ((), cursor), .none⟩
  | _ => ⟨none, .single cursor.position .endOfText⟩

/-- Reads a value with white space around it. -/
def padded (parser : Parser α) : Parser α := do
  blanks
  let a ← parser
  blanks
  return a

/-- Reads this character with white space around it. -/
def mark (c : Char) : Parser Unit :=
  padded (char c)

/-- Reads a value, or nothing where there is none. -/
def optional (parser : Parser α) : Parser (Option α) := fun cursor =>
  match parser cursor with
  | ⟨none, furthest⟩ => ⟨some (none, cursor), furthest⟩
  | ⟨some (a, after), furthest⟩ => ⟨some (some a, after), furthest⟩

/-- Reads values as long as there are any; one that takes no character is the last. -/
def many (parser : Parser α) (cursor : Cursor) : Reply (List α) :=
  match parser cursor with
  | ⟨none, furthest⟩ => ⟨some ([], cursor), furthest⟩
  | ⟨some (a, after), furthest⟩ =>
    if after.rest.length < cursor.rest.length then
      let others := many parser after
      ⟨others.result.map fun (as, stop) => (a :: as, stop), furthest.max others.furthest⟩
    else ⟨some ([a], after), furthest⟩
termination_by cursor.rest.length

/-- Reads a value, or what is read at the same place without the failures of the first attempt. -/
def orElse (parser other : Parser α) : Parser α := fun cursor =>
  match parser cursor with
  | ⟨none, _⟩ => other cursor
  | reply => reply

end Parser

end MessageGrammar.Notation
