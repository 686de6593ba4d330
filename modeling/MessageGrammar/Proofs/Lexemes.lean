import Mathlib.Algebra.Group.Int.Defs
import MessageGrammar.Proofs.Runs
import MessageGrammar.Token.Lexer

/-!
# Lexemes

The four ways to spell a token, and the token that each spelling denotes, said without a search
through a text. Taking the longest lexeme at a position finds exactly the lexeme that stands there
and is not carried on by the characters behind it.
-/

namespace MessageGrammar

/-- A spelling of a token, part by part. -/
inductive Lexeme where
  /-- Letters. -/
  | word (letters : List Char)
  /-- Digits, perhaps behind a minus sign. -/
  | integer (negative : Bool) (digits : List Char)
  /-- Digits on both sides of a point, perhaps behind a sign. -/
  | float (sign : Option Char) (whole fraction : List Char)
  /-- A single mark. -/
  | delimiter (mark : Char)

namespace Lexeme

/-- The characters of a lexeme. -/
def text : Lexeme → List Char
  | word letters => letters
  | integer negative digits => if negative then '-' :: digits else digits
  | float sign whole fraction => sign.toList ++ (whole ++ '.' :: fraction)
  | delimiter mark => [mark]

/-- The parts of a lexeme are what its rule asks for: ASCII letters, decimal digits, a sign, one of
the two marks. -/
def Spelled : Lexeme → Prop
  | word letters => Text.Run Char.isAlpha letters
  | integer _ digits => Text.Run Char.isDigit digits
  | float sign whole fraction =>
    (∀ c ∈ sign, c = '-' ∨ c = '+') ∧ Text.Run Char.isDigit whole ∧ Text.Run Char.isDigit fraction
  | delimiter mark => mark = ',' ∨ mark = ';'

/-- The whole number that digits denote, perhaps behind a minus sign. -/
def wholeNumber (negative : Bool) (digits : List Char) : Int :=
  let size : Int := Nat.ofDigitChars 10 digits 0
  if negative then -size else size

/-- The token that a lexeme denotes: none if a whole number has more than 64 bits. A decimal number
has the value that its text is read as. -/
def token? : Lexeme → Option Token
  | word letters => some (.word (String.ofList letters))
  | integer negative digits =>
    let value := wholeNumber negative digits
    if -2 ^ 63 ≤ value ∧ value < 2 ^ 63 then some (.integer value) else none
  | float sign whole fraction =>
    (Decimal.ofText? (String.ofList (float sign whole fraction).text)).map .float
  | delimiter mark => some (.delimiter mark)

/-- Whether the lexeme is a word. -/
def isWord : Lexeme → Bool
  | word _ => true
  | _ => false

/-- Whether the lexeme is a whole or a decimal number. -/
def isNumeral : Lexeme → Bool
  | integer _ _ | float _ _ _ => true
  | _ => false

/-- The characters behind a lexeme do not carry it on. -/
def Ends : Lexeme → List Char → Prop
  | word _, rest => ∀ c ∈ rest.head?, c.isAlpha = false
  | integer _ _, rest => (∀ c ∈ rest.head?, c.isDigit = false) ∧ Token.fractionDigits rest = []
  | float _ _ _, rest => ∀ c ∈ rest.head?, c.isDigit = false
  | delimiter _, _ => True

end Lexeme

section Characters

variable {c : Char}

/-- Whether a lexeme can start with the character. -/
def startsLexeme (c : Char) : Bool :=
  c.isAlpha || c.isDigit || c = '-' || c = '+' || c = ',' || c = ';'

/-- No lexeme starts with white space. -/
theorem startsLexeme_of_isGap (h : Token.isGap c = true) : startsLexeme c = false := by
  simp only [Token.isGap, Bool.or_eq_true, decide_eq_true_eq] at h
  rcases h with (((rfl | rfl) | rfl) | rfl) | rfl <;> decide

/-- Whether a word or a number can go on with the character. -/
def continuesLexeme (c : Char) : Bool :=
  c.isAlpha || c.isDigit || c = '.'

/-- A character with which neither a word nor a number goes on is no letter, no digit and no
point. -/
theorem continuesLexeme_eq_false_iff :
    continuesLexeme c = false ↔ c.isAlpha = false ∧ c.isDigit = false ∧ c ≠ '.' := by
  simp [continuesLexeme, and_assoc]

/-- Neither a word nor a number goes on with white space. -/
theorem continuesLexeme_of_isGap (h : Token.isGap c = true) : continuesLexeme c = false := by
  simp only [Token.isGap, Bool.or_eq_true, decide_eq_true_eq] at h
  rcases h with (((rfl | rfl) | rfl) | rfl) | rfl <;> decide

/-- A digit is no letter. -/
theorem isAlpha_eq_false_of_isDigit (h : c.isDigit = true) : c.isAlpha = false := by
  unfold Char.isDigit at h
  unfold Char.isAlpha Char.isUpper Char.isLower
  grind

/-- A digit has no small form. -/
theorem toLower_of_isDigit (h : c.isDigit = true) : c.toLower = c := by
  unfold Char.isDigit at h
  unfold Char.toLower
  grind

/-- A digit is no other character that was looked at. -/
theorem ne_of_isDigit {d : Char} (h : c.isDigit = true) (hd : d.isDigit = false) : c ≠ d := by
  rintro rfl
  exact absurd h (by simp [hd])

end Characters

namespace Decimal

/-- Digits are read as the whole number that they denote. -/
theorem digitsValue_eq (digits : List Char) : digitsValue digits = Nat.ofDigitChars 10 digits 0 := by
  simp only [digitsValue, Nat.ofDigitChars_eq_foldl, Nat.mul_comm]

/-- A number in range has 64 bits with a sign. -/
theorem inRange_iff {value : Int} : inRange value = true ↔ -2 ^ 63 ≤ value ∧ value < 2 ^ 63 := by
  simp only [inRange, Bool.and_eq_true, decide_eq_true_eq]
  omega

variable {whole fraction : List Char}

/-- Digits around a point are the value of all digits, moved by the places behind the point. The
names of special values do not start with a digit. -/
theorem unsigned?_of_point (hwhole : Text.Run Char.isDigit whole)
    (hfraction : Text.Run Char.isDigit fraction) :
    unsigned? (whole ++ '.' :: fraction) =
      some (nearest (digitsValue (whole ++ fraction)) (-fraction.length)) := by
  obtain ⟨c, others, hcons, hc⟩ := hwhole.exists_cons
  have hlower : ((whole ++ '.' :: fraction).map Char.toLower).head? = some c := by
    rw [hcons]
    simp [toLower_of_isDigit hc]
  have hname : ∀ name : String, name.toList.head? ≠ some c →
      String.ofList ((whole ++ '.' :: fraction).map Char.toLower) ≠ name := by
    intro name hname heq
    rw [← heq, String.toList_ofList] at hname
    exact hname hlower
  have hi : c ≠ 'i' := ne_of_isDigit hc (by decide)
  have hn : c ≠ 'n' := ne_of_isDigit hc (by decide)
  have hinf := hname "inf" (by simpa using hi.symm)
  have hinfinity := hname "infinity" (by simpa using hi.symm)
  have hnan := hname "nan" (by simpa using hn.symm)
  have htake : (whole ++ '.' :: fraction).takeWhile Char.isDigit = whole :=
    Text.takeWhile_append_of_head? hwhole.2 (by simp)
  have hall : fraction.takeWhile Char.isDigit = fraction :=
    List.takeWhile_eq_self_iff.mpr hfraction.2
  have hnone : fraction.dropWhile Char.isDigit = [] := List.dropWhile_eq_nil_iff.mpr hfraction.2
  unfold unsigned?
  simp only [htake, List.drop_left, hall, hnone, hinf, hinfinity, hnan, hwhole.1, exponentOf?]
  simp

/-- A decimal literal is read as the number that its parts denote. -/
theorem ofText?_of_parts {sign : Option Char} (hsign : ∀ c ∈ sign, c = '-' ∨ c = '+')
    (hwhole : Text.Run Char.isDigit whole) (hfraction : Text.Run Char.isDigit fraction) :
    ofText? (String.ofList (sign.toList ++ (whole ++ '.' :: fraction))) =
      some (ofParts (sign == some '-') whole fraction) := by
  have hsize := unsigned?_of_point hwhole hfraction
  cases sign with
  | none =>
    obtain ⟨c, others, hcons, hc⟩ := hwhole.exists_cons
    have hminus : c ≠ '-' := ne_of_isDigit hc (by decide)
    have hplus : c ≠ '+' := ne_of_isDigit hc (by decide)
    rw [hcons] at hsize ⊢
    simp only [ofText?, Option.toList_none, List.nil_append, String.toList_ofList, List.cons_append]
    split
    next heq => exact absurd (List.cons.inj heq).1 hminus
    next heq => exact absurd (List.cons.inj heq).1 hplus
    next => exact hsize
  | some c =>
    rcases hsign c rfl with rfl | rfl
    · simp only [ofText?, Option.toList_some, List.singleton_append, String.toList_ofList, hsize]
      rfl
    · simp only [ofText?, Option.toList_some, List.singleton_append, String.toList_ofList, hsize]
      rfl

end Decimal

namespace Token

/-- Digits, perhaps behind a minus sign, denote the token of their whole number. -/
theorem ofDigits?_eq (negative : Bool) (digits : List Char) :
    ofDigits? negative digits = (Lexeme.integer negative digits).token? := by
  have hvalue : (if negative then -(Decimal.digitsValue digits : Int)
      else Decimal.digitsValue digits) = Lexeme.wholeNumber negative digits := by
    rw [Decimal.digitsValue_eq]
    rfl
  unfold ofDigits? Lexeme.token?
  dsimp only
  rw [hvalue]
  exact if_congr Decimal.inRange_iff rfl rfl

/-- Digits of a fraction stand behind a point. -/
theorem exists_of_fractionDigits {s : List Char} (h : fractionDigits s ≠ []) :
    ∃ r, s = '.' :: r ∧ fractionDigits s = r.takeWhile Char.isDigit := by
  unfold fractionDigits at h ⊢
  split
  next r => exact ⟨r, rfl, rfl⟩
  next hpoint =>
    split at h
    next r => exact absurd rfl (hpoint r)
    next => exact absurd rfl h

variable {rest : List Char} (sign : Option Char)

/-- Digits that are not carried on are taken as a whole number, but not behind a plus sign. -/
theorem numeral_of_digits {digits : List Char} (h : Text.Run Char.isDigit digits)
    (hrest : ∀ c ∈ rest.head?, c.isDigit = false) (hfraction : fractionDigits rest = []) :
    numeral sign (digits ++ rest) =
      (digits, if sign = some '+' then none else ofDigits? (sign == some '-') digits) := by
  have htake := Text.takeWhile_append_of_head? h.2 hrest
  have hdrop := Text.dropWhile_append_of_head? h.2 hrest
  unfold numeral
  simp only [htake, hdrop, hfraction, h.1]
  by_cases hplus : sign = some '+'
  · simp [hplus]
  · simp [hplus]

/-- Digits around a point that are not carried on are taken as a decimal number. -/
theorem numeral_of_point {whole fraction : List Char} (hwhole : Text.Run Char.isDigit whole)
    (hfraction : Text.Run Char.isDigit fraction) (hrest : ∀ c ∈ rest.head?, c.isDigit = false) :
    numeral sign (whole ++ '.' :: fraction ++ rest) =
      (whole ++ '.' :: fraction,
        some (.float (Decimal.ofParts (sign == some '-') whole fraction))) := by
  have hpoint : ∀ c ∈ ('.' :: (fraction ++ rest)).head?, c.isDigit = false := by simp
  have htake := Text.takeWhile_append_of_head? hwhole.2 hpoint
  have hdrop := Text.dropWhile_append_of_head? hwhole.2 hpoint
  have hdigits : fractionDigits ('.' :: (fraction ++ rest)) = fraction :=
    Text.takeWhile_append_of_head? hfraction.2 hrest
  rw [List.append_assoc, List.cons_append]
  unfold numeral
  simp only [htake, hdrop, hdigits]
  rw [if_pos ⟨hwhole.1, hfraction.1⟩]

/-- A number is taken as its numeral behind the sign, if there is one. -/
theorem lexeme_of_numeral {c d : Char} {s body : List Char} (hsign : ∀ c ∈ sign, c = '-' ∨ c = '+')
    (hbody : body.head? = some d) (hd : d.isDigit = true) (h : c :: s = sign.toList ++ body) :
    lexeme c s = ((sign.toList ++ (numeral sign body).1).drop 1, (numeral sign body).2) := by
  cases sign with
  | none =>
    obtain rfl : c :: s = body := h
    obtain rfl : c = d := Option.some.inj hbody
    have hletter : isLetter c = false := isAlpha_eq_false_of_isDigit hd
    unfold lexeme
    rw [if_neg (Bool.eq_false_iff.mp hletter), if_pos hd]
    rfl
  | some mark =>
    obtain ⟨rfl, rfl⟩ : c = mark ∧ s = body := by simpa using h
    rcases hsign c rfl with rfl | rfl <;> rfl

end Token

namespace Lexeme

variable {lexeme : Lexeme} {c : Char} {text rest : List Char}

/-- The lexeme that stands at the beginning of a text and is not carried on is the one that is
taken, with the token that it denotes. -/
theorem taken_of_ends (h : lexeme.Spelled) (hrest : lexeme.Ends rest)
    (htext : lexeme.text = c :: text) :
    Token.lexeme c (text ++ rest) = (text, lexeme.token?) := by
  cases lexeme with
  | word letters =>
    obtain rfl : letters = c :: text := htext
    obtain ⟨hc, hletters⟩ := List.forall_mem_cons.mp h.2
    have hletter : Token.isLetter c = true := hc
    have htake : (text ++ rest).takeWhile Token.isLetter = text :=
      Text.takeWhile_append_of_head? hletters hrest
    unfold Token.lexeme
    rw [if_pos hletter]
    dsimp only
    rw [htake]
    rfl
  | integer negative digits =>
    obtain ⟨d, others, hdigits, hd⟩ := Text.Run.exists_cons h
    have hhead : (digits ++ rest).head? = some d := by simp [hdigits]
    cases negative with
    | false =>
      obtain rfl : digits = c :: text := htext
      have hbody : c :: (text ++ rest) = none.toList ++ (c :: text ++ rest) := rfl
      have hnumeral := Token.numeral_of_digits none h hrest.1 hrest.2
      rw [Token.lexeme_of_numeral _ (by simp) hhead hd hbody, hnumeral, ← Token.ofDigits?_eq]
      rfl
    | true =>
      obtain ⟨rfl, rfl⟩ : '-' = c ∧ digits = text := by simpa [Lexeme.text] using htext
      have hbody : '-' :: (digits ++ rest) = (some '-').toList ++ (digits ++ rest) := rfl
      have hnumeral := Token.numeral_of_digits (some '-') h hrest.1 hrest.2
      rw [Token.lexeme_of_numeral _ (by simp) hhead hd hbody, hnumeral, ← Token.ofDigits?_eq]
      rfl
  | float sign whole fraction =>
    obtain ⟨hsign, hwhole, hfraction⟩ := h
    obtain ⟨d, others, hdigits, hd⟩ := hwhole.exists_cons
    have hhead : (whole ++ '.' :: fraction ++ rest).head? = some d := by simp [hdigits]
    have hbody : c :: (text ++ rest) = sign.toList ++ (whole ++ '.' :: fraction ++ rest) := by
      rw [← List.cons_append, ← htext, Lexeme.text, List.append_assoc]
    have hvalue := Decimal.ofText?_of_parts hsign hwhole hfraction
    have hnumeral := Token.numeral_of_point sign hwhole hfraction hrest
    rw [Token.lexeme_of_numeral _ hsign hhead hd hbody, hnumeral, token?, Lexeme.text, hvalue]
    dsimp only
    rw [show sign.toList ++ (whole ++ '.' :: fraction) = c :: text from htext]
    rfl
  | delimiter mark =>
    obtain ⟨rfl, rfl⟩ : mark = c ∧ text = [] := by simpa [Lexeme.text, eq_comm] using htext
    rcases h with rfl | rfl <;> rfl

/-- The first character of a lexeme tells whether it is a word, a number or a mark. -/
theorem Spelled.exists_head (h : lexeme.Spelled) :
    ∃ c text, lexeme.text = c :: text ∧ startsLexeme c = true ∧ c.isAlpha = lexeme.isWord ∧
      (c.isDigit || c = '-' || c = '+') = lexeme.isNumeral := by
  cases lexeme with
  | word letters =>
    obtain ⟨c, others, hletters, hc⟩ := Text.Run.exists_cons h
    have hdigit : c.isDigit = false := by
      cases hd : c.isDigit with
      | false => rfl
      | true => exact absurd hc (by simp [isAlpha_eq_false_of_isDigit hd])
    have hminus : c ≠ '-' := by
      rintro rfl
      exact absurd hc (by decide)
    have hplus : c ≠ '+' := by
      rintro rfl
      exact absurd hc (by decide)
    exact ⟨c, others, hletters, by simp [startsLexeme, hc], hc, by
      simp [isNumeral, hdigit, hminus, hplus]⟩
  | integer negative digits =>
    obtain ⟨c, others, hdigits, hc⟩ := Text.Run.exists_cons h
    cases negative with
    | false =>
      exact ⟨c, others, hdigits, by simp [startsLexeme, hc], isAlpha_eq_false_of_isDigit hc, by
        simp [isNumeral, hc]⟩
    | true => exact ⟨'-', digits, rfl, rfl, rfl, rfl⟩
  | float sign whole fraction =>
    obtain ⟨hsign, hwhole, -⟩ := h
    cases sign with
    | none =>
      obtain ⟨c, others, hdigits, hc⟩ := hwhole.exists_cons
      exact ⟨c, others ++ '.' :: fraction, by simp [Lexeme.text, hdigits],
        by simp [startsLexeme, hc], isAlpha_eq_false_of_isDigit hc, by simp [isNumeral, hc]⟩
    | some mark =>
      refine ⟨mark, whole ++ '.' :: fraction, rfl, ?_⟩
      rcases hsign mark rfl with rfl | rfl <;> exact ⟨rfl, rfl, rfl⟩
  | delimiter mark =>
    refine ⟨mark, [], rfl, ?_⟩
    rcases h with rfl | rfl <;> exact ⟨rfl, rfl, rfl⟩

/-- The parts of a number: a sign, digits, and something that does not go on with a digit. -/
structure Parts (sign : Option Char) (whole tail : List Char) : Prop where
  /-- The sign is a minus or a plus sign. -/
  sign : ∀ c ∈ sign, c = '-' ∨ c = '+'
  /-- There are digits. -/
  whole : Text.Run Char.isDigit whole
  /-- The digits end. -/
  tail : ∀ c ∈ tail.head?, c.isDigit = false

/-- The number with some digits; behind them stands a point with a fraction or nothing. -/
def ofParts (sign : Option Char) (whole : List Char) : List Char → Lexeme
  | [] => integer (sign == some '-') whole
  | _ :: fraction => float sign whole fraction

/-- A number is made of its parts. -/
theorem Spelled.exists_parts (h : lexeme.Spelled) (hnumeral : lexeme.isNumeral = true) :
    ∃ sign whole tail, Parts sign whole tail ∧ lexeme.text = sign.toList ++ (whole ++ tail) ∧
      lexeme = ofParts sign whole tail := by
  cases lexeme with
  | integer negative digits =>
    cases negative with
    | false => exact ⟨none, digits, [], ⟨by simp, h, by simp⟩, by simp [Lexeme.text], rfl⟩
    | true => exact ⟨some '-', digits, [], ⟨by simp, h, by simp⟩, by simp [Lexeme.text], rfl⟩
  | float sign whole fraction =>
    exact ⟨sign, whole, '.' :: fraction, ⟨h.1, h.2.1, by simp⟩, rfl, rfl⟩
  | word _ | delimiter _ => exact absurd hnumeral Bool.false_ne_true

/-- The parts of a number are known from its characters. -/
theorem Parts.eq_of_append_eq {sign sign' : Option Char} {whole whole' tail tail' : List Char}
    (hfirst : Parts sign whole tail) (hsecond : Parts sign' whole' tail')
    (h : sign.toList ++ (whole ++ tail) = sign'.toList ++ (whole' ++ tail')) :
    sign = sign' ∧ whole = whole' ∧ tail = tail' := by
  obtain ⟨d, others, hd, hdigit⟩ := hfirst.whole.exists_cons
  obtain ⟨d', others', hd', hdigit'⟩ := hsecond.whole.exists_cons
  have hmark : ∀ c : Char, c = '-' ∨ c = '+' → c.isDigit = false := by
    rintro c (rfl | rfl) <;> rfl
  have hboth : sign = sign' ∧ whole ++ tail = whole' ++ tail' := by
    cases sign with
    | none =>
      cases sign' with
      | none => exact ⟨rfl, h⟩
      | some c =>
        obtain rfl : d = c := by simpa [hd] using congrArg List.head? h
        exact absurd hdigit (by simp [hmark d (hsecond.sign d rfl)])
    | some c =>
      cases sign' with
      | none =>
        obtain rfl : c = d' := by simpa [hd'] using congrArg List.head? h
        exact absurd hdigit' (by simp [hmark c (hfirst.sign c rfl)])
      | some c' =>
        obtain ⟨rfl, hbody⟩ := List.cons.inj h
        exact ⟨rfl, hbody⟩
  obtain ⟨hsame, hbody⟩ := hboth
  have hruns := congrArg (List.takeWhile Char.isDigit) hbody
  have hrests := congrArg (List.dropWhile Char.isDigit) hbody
  rw [Text.takeWhile_append_of_head? hfirst.whole.2 hfirst.tail,
    Text.takeWhile_append_of_head? hsecond.whole.2 hsecond.tail] at hruns
  rw [Text.dropWhile_append_of_head? hfirst.whole.2 hfirst.tail,
    Text.dropWhile_append_of_head? hsecond.whole.2 hsecond.tail] at hrests
  exact ⟨hsame, hruns, hrests⟩

/-- No text is a lexeme in two ways. -/
theorem Spelled.eq_of_text_eq {first second : Lexeme} (hfirst : first.Spelled)
    (hsecond : second.Spelled) (h : first.text = second.text) : first = second := by
  obtain ⟨c, text, htext, -, hword, hnumeral⟩ := hfirst.exists_head
  obtain ⟨c', text', htext', -, hword', hnumeral'⟩ := hsecond.exists_head
  obtain ⟨rfl, rfl⟩ : c = c' ∧ text = text' := List.cons.inj (htext.symm.trans (h.trans htext'))
  have hwords : first.isWord = second.isWord := hword.symm.trans hword'
  have hnumerals : first.isNumeral = second.isNumeral := hnumeral.symm.trans hnumeral'
  cases hkind : first.isNumeral with
  | true =>
    have hkind' : second.isNumeral = true := hnumerals.symm.trans hkind
    obtain ⟨sign, whole, tail, hparts, heq, rfl⟩ := hfirst.exists_parts hkind
    obtain ⟨sign', whole', tail', hparts', heq', rfl⟩ := hsecond.exists_parts hkind'
    rw [heq, heq'] at h
    obtain ⟨rfl, rfl, rfl⟩ := hparts.eq_of_append_eq hparts' h
    rfl
  | false =>
    cases first with
    | word letters =>
      cases second with
      | word letters' => exact congrArg word h
      | integer _ _ | float _ _ _ | delimiter _ => exact absurd hwords.symm Bool.false_ne_true
    | delimiter mark =>
      cases second with
      | delimiter mark' => exact congrArg delimiter (List.cons.inj h).1
      | word _ => exact absurd hwords Bool.false_ne_true
      | integer _ _ | float _ _ _ => exact absurd hnumerals Bool.false_ne_true
    | integer _ _ | float _ _ _ => exact absurd hkind (by simp [isNumeral])

/-- Where a numeral denotes a token, a number stands that is not carried on. -/
theorem exists_of_numeral (sign : Option Char) {s : List Char} {token : Token}
    (hsign : ∀ c ∈ sign, c = '-' ∨ c = '+') (h : (Token.numeral sign s).2 = some token) :
    ∃ (lexeme : Lexeme) (rest : List Char), lexeme.Spelled ∧ lexeme.Ends rest ∧
      sign.toList ++ s = lexeme.text ++ rest := by
  have hsplit : s.takeWhile Char.isDigit ++ s.dropWhile Char.isDigit = s :=
    List.takeWhile_append_dropWhile
  have hdigits : ∀ c ∈ s.takeWhile Char.isDigit, c.isDigit = true :=
    fun c hc => List.mem_takeWhile_imp hc
  have hrest := Text.head?_dropWhile Char.isDigit s
  unfold Token.numeral at h
  dsimp only at h
  split at h
  next hpoint =>
    obtain ⟨hwhole, hfraction⟩ := hpoint
    obtain ⟨r, hr, htake⟩ := Token.exists_of_fractionDigits hfraction
    have hparts : ∀ c ∈ r.takeWhile Char.isDigit, c.isDigit = true :=
      fun c hc => List.mem_takeWhile_imp hc
    rw [htake] at hfraction
    refine ⟨float sign (s.takeWhile Char.isDigit) (r.takeWhile Char.isDigit),
      r.dropWhile Char.isDigit, ⟨hsign, ⟨hwhole, hdigits⟩, ⟨hfraction, hparts⟩⟩,
      Text.head?_dropWhile Char.isDigit r, ?_⟩
    calc sign.toList ++ s
        = sign.toList ++ (s.takeWhile Char.isDigit ++ '.' :: r) := by rw [← hr, hsplit]
      _ = sign.toList ++ (s.takeWhile Char.isDigit ++
            '.' :: (r.takeWhile Char.isDigit ++ r.dropWhile Char.isDigit)) := by
          rw [List.takeWhile_append_dropWhile]
      _ = (float sign (s.takeWhile Char.isDigit) (r.takeWhile Char.isDigit)).text ++
            r.dropWhile Char.isDigit := by
          simp only [Lexeme.text, List.append_assoc, List.cons_append]
  next hpoint =>
    split at h
    next => exact absurd h (by simp)
    next hother =>
      obtain ⟨hwhole, hplus⟩ := not_or.mp hother
      have hnone : Token.fractionDigits (s.dropWhile Char.isDigit) = [] := by
        by_contra hfraction
        exact hpoint ⟨hwhole, hfraction⟩
      have htext : (integer (sign == some '-') (s.takeWhile Char.isDigit)).text =
          sign.toList ++ s.takeWhile Char.isDigit := by
        cases sign with
        | none => rfl
        | some c =>
          rcases hsign c rfl with rfl | rfl
          · rfl
          · exact absurd rfl hplus
      refine ⟨integer (sign == some '-') (s.takeWhile Char.isDigit), s.dropWhile Char.isDigit,
        ⟨hwhole, hdigits⟩, ⟨hrest, hnone⟩, ?_⟩
      rw [htext, List.append_assoc, hsplit]

/-- Where a token is taken, some lexeme stands that is not carried on. -/
theorem exists_of_token {s : List Char} {token : Token} (h : (Token.lexeme c s).2 = some token) :
    ∃ (lexeme : Lexeme) (rest : List Char), lexeme.Spelled ∧ lexeme.Ends rest ∧
      c :: s = lexeme.text ++ rest := by
  unfold Token.lexeme at h
  split at h
  next hletter =>
    have hletters : ∀ d ∈ c :: s.takeWhile Char.isAlpha, d.isAlpha = true :=
      List.forall_mem_cons.mpr ⟨hletter, fun d hd => List.mem_takeWhile_imp hd⟩
    refine ⟨word (c :: s.takeWhile Char.isAlpha), s.dropWhile Char.isAlpha,
      ⟨List.cons_ne_nil _ _, hletters⟩, Text.head?_dropWhile Char.isAlpha s, ?_⟩
    rw [Lexeme.text, List.cons_append, List.takeWhile_append_dropWhile]
  next =>
    split at h
    next => exact exists_of_numeral none (by simp) h
    next =>
      split at h
      next hsign => exact exists_of_numeral (some c) (by simpa using hsign) h
      next =>
        split at h
        next hmark => exact ⟨delimiter c, s, hmark, trivial, rfl⟩
        next => exact absurd h (by simp)

/-- Where a token is taken, a lexeme of this token stands that is not carried on. -/
theorem exists_of_taken {s : List Char} {token : Token}
    (h : Token.lexeme c s = (text, some token)) :
    ∃ (lexeme : Lexeme) (rest : List Char), lexeme.Spelled ∧ lexeme.Ends rest ∧
      lexeme.token? = some token ∧ lexeme.text = c :: text ∧ s = text ++ rest := by
  obtain ⟨lexeme, rest, hspelled, hends, hs⟩ := exists_of_token (congrArg Prod.snd h)
  obtain ⟨d, others, htext, -⟩ := hspelled.exists_head
  rw [htext] at hs
  obtain ⟨rfl, rfl⟩ : c = d ∧ s = others ++ rest := List.cons.inj hs
  have htaken := taken_of_ends hspelled hends htext
  obtain ⟨rfl, htoken⟩ := Prod.mk.inj (htaken.symm.trans h)
  exact ⟨lexeme, rest, hspelled, hends, htoken, htext, rfl⟩

end Lexeme

end MessageGrammar
