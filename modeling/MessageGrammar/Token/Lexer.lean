import MessageGrammar.Span
import MessageGrammar.Text.Quoted
import MessageGrammar.Token

/-!
# Tokens of a text

White space between tokens is skipped, and at every position the longest lexeme is taken: letters, a
whole number with an optional minus sign, a decimal number with an optional sign and digits on both
sides of the point, a comma or a semicolon. The first text that is none of these, or a whole number
beyond 64 bits, rejects the message.
-/

namespace MessageGrammar

/-- The text at which a message stops being a sequence of tokens. -/
structure LexError where
  /-- Where the text stands, in bytes. -/
  span : Span
  /-- The rejected text. -/
  fragment : String
  deriving DecidableEq, Repr

/-- The sentence that reports the error. -/
def LexError.message (error : LexError) : String :=
  "Unrecognized input " ++ Text.quote error.fragment ++ " at byte " ++ toString error.span.start

namespace Token

/-- The characters that may stand between tokens. -/
def isGap (c : Char) : Bool :=
  c = ' ' || c = '\t' || c = '\r' || c = '\n' || c = '\x0c'

/-- The characters of a word. -/
def isLetter (c : Char) : Bool :=
  c.isAlpha

/-- Digits with an optional minus sign as a token, if they are in range. -/
def ofDigits? (negative : Bool) (digits : List Char) : Option Token :=
  let size : Int := Decimal.digitsValue digits
  let value := if negative then -size else size
  if Decimal.inRange value then some (.integer value) else none

/-- A point with at least one digit after it, as those digits. -/
def fractionDigits : List Char → List Char
  | '.' :: s => s.takeWhile Char.isDigit
  | _ => []

/-- The lexeme that starts with the optional sign `sign` and goes on in `s` with digits. A plus sign
belongs to decimal numbers only, so that with digits alone after it the lexeme denotes nothing. -/
def numeral (sign : Option Char) (s : List Char) : List Char × Option Token :=
  let whole := s.takeWhile Char.isDigit
  let fraction := fractionDigits (s.dropWhile Char.isDigit)
  if whole ≠ [] ∧ fraction ≠ [] then
    (whole ++ '.' :: fraction, some (.float (Decimal.ofParts (sign == some '-') whole fraction)))
  else if whole = [] ∨ sign = some '+' then (whole, none)
  else (whole, ofDigits? (sign == some '-') whole)

theorem fractionDigits_isPrefix {s : List Char} (h : fractionDigits s ≠ []) :
    '.' :: fractionDigits s <+: s := by
  unfold fractionDigits at h ⊢
  split
  next r => exact List.cons_prefix_cons.mpr ⟨rfl, List.takeWhile_prefix _⟩
  next => simp_all

/-- A numeral stands at the beginning of the text it is taken from. -/
theorem numeral_isPrefix (sign : Option Char) (s : List Char) : (numeral sign s).1 <+: s := by
  unfold numeral
  dsimp only
  split
  next h =>
    obtain ⟨rest, hr⟩ := fractionDigits_isPrefix h.2
    refine ⟨rest, ?_⟩
    dsimp only
    rw [List.append_assoc, hr, List.takeWhile_append_dropWhile]
  next =>
    split
    · exact List.takeWhile_prefix _
    · exact List.takeWhile_prefix _

/-- The longest lexeme that starts with `c` and goes on in `s`: the characters taken from `s` and
the token they denote together with `c`. -/
def lexeme (c : Char) (s : List Char) : List Char × Option Token :=
  if isLetter c then
    let letters := s.takeWhile isLetter
    (letters, some (.word (String.ofList (c :: letters))))
  else if c.isDigit then
    let (text, token) := numeral none (c :: s)
    (text.drop 1, token)
  else if c = '-' ∨ c = '+' then numeral (some c) s
  else if c = ',' ∨ c = ';' then ([], some (.delimiter c))
  else ([], none)

/-- A lexeme stands at the beginning of the text it is taken from. -/
theorem lexeme_isPrefix (c : Char) (s : List Char) : (lexeme c s).1 <+: s := by
  unfold lexeme
  split
  · exact List.takeWhile_prefix _
  · split
    · obtain ⟨rest, hr⟩ := numeral_isPrefix none (c :: s)
      dsimp only
      cases ht : (numeral none (c :: s)).1 with
      | nil => exact List.nil_prefix
      | cons d text =>
        rw [ht, List.cons_append, List.cons.injEq] at hr
        exact ⟨rest, hr.2⟩
    · split
      · exact numeral_isPrefix _ _
      · split
        · exact List.nil_prefix
        · exact List.nil_prefix

/-- Length of a text in UTF-8 bytes. -/
def byteLength : List Char → Nat
  | [] => 0
  | c :: s => c.utf8Size + byteLength s

/-- The tokens of a text that starts at byte `offset`, each with the bytes it stands on. -/
def scan (offset : Nat) : List Char → Except LexError (List (Token × Span))
  | [] => .ok []
  | c :: s =>
    if isGap c then scan (offset + c.utf8Size) s
    else
      let (text, token?) := lexeme c s
      let span : Span := ⟨offset, offset + byteLength (c :: text)⟩
      match token? with
      | none => .error ⟨span, String.ofList (c :: text)⟩
      | some token => (scan span.stop (s.drop text.length)).map ((token, span) :: ·)
termination_by s => s.length

end Token

/-- The tokens of a message with the bytes they stand on. -/
def tokenizeWithSpans (source : String) : Except LexError (List (Token × Span)) :=
  Token.scan 0 source.toList

/-- The tokens of a message. -/
def tokenize (source : String) : Except LexError (List Token) :=
  (tokenizeWithSpans source).map (·.map Prod.fst)

end MessageGrammar
