import MessageGrammar.Proofs.Factorization

/-!
# Texts apart

White space ends whatever stands before it in the same way as the end of the text does: the lexemes
before it are those of the text before it alone, complete or not. So two texts with white space
between them are scanned one after the other, and the second one as if it stood alone, only later.
-/

namespace MessageGrammar

/-- The same error, `offset` bytes later. -/
def LexError.shift (error : LexError) (offset : Nat) : LexError :=
  { error with span := error.span.shift offset }

namespace Token

/-- The same tokens, `offset` bytes later. -/
def shiftAll (tokens : List (Token × Span)) (offset : Nat) : List (Token × Span) :=
  tokens.map fun (token, span) => (token, span.shift offset)

section Append

variable {rest : List Char} (hrest : ∀ c ∈ rest.head?, continuesLexeme c = false)

include hrest

/-- A point behind digits has the same fraction before characters that no number goes on with as at
the end of a text. -/
theorem fractionDigits_append (s : List Char) : fractionDigits (s ++ rest) = fractionDigits s := by
  have hdigit : ∀ c ∈ rest.head?, c.isDigit = false :=
    fun c hc => (continuesLexeme_eq_false_iff.mp (hrest c hc)).2.1
  cases s with
  | nil =>
    by_contra hne
    obtain ⟨r, rfl, -⟩ := exists_of_fractionDigits hne
    exact (continuesLexeme_eq_false_iff.mp (hrest '.' rfl)).2.2 rfl
  | cons c s =>
    by_cases hc : c = '.'
    · rw [hc]
      exact Text.takeWhile_append_of_stop s hdigit
    · have hnone : ∀ r, fractionDigits (c :: r) = [] := by
        intro r
        by_contra hne
        obtain ⟨r', heq, -⟩ := exists_of_fractionDigits hne
        exact hc (List.cons.inj heq).1
      rw [List.cons_append, hnone, hnone]

/-- A numeral, complete or not, ends before characters that no number goes on with as it does at
the end of a text. -/
theorem numeral_append (sign : Option Char) (s : List Char) :
    numeral sign (s ++ rest) = numeral sign s := by
  have hdigit : ∀ c ∈ rest.head?, c.isDigit = false :=
    fun c hc => (continuesLexeme_eq_false_iff.mp (hrest c hc)).2.1
  unfold numeral
  rw [Text.takeWhile_append_of_stop s hdigit, Text.dropWhile_append_of_stop s hdigit,
    fractionDigits_append hrest]

/-- What is taken from a text, and whether it denotes a token, does not depend on characters behind
the text that no lexeme goes on with. -/
theorem lexeme_append (c : Char) (s : List Char) : lexeme c (s ++ rest) = lexeme c s := by
  have hletter : ∀ c ∈ rest.head?, isLetter c = false :=
    fun c hc => (continuesLexeme_eq_false_iff.mp (hrest c hc)).1
  unfold lexeme
  rw [Text.takeWhile_append_of_stop s hletter, ← List.cons_append, numeral_append hrest none,
    numeral_append hrest (some c)]

/-- A text is scanned before what follows it, and as if nothing followed. -/
theorem scan_append (offset : Nat) (s : List Char) :
    scan offset (s ++ rest) = (scan offset s).bind fun tokens =>
      (scan (offset + byteLength s) rest).map (tokens ++ ·) := by
  fun_induction scan offset s with
  | case1 offset =>
    cases hscan : scan offset rest <;> simp [hscan, byteLength, Except.bind, Except.map]
  | case2 offset c s hgap ih =>
    rw [List.cons_append, scan, if_pos hgap, ih, byteLength, Nat.add_assoc]
  | case3 offset c s hgap text span htaken =>
    have htaken' : lexeme c (s ++ rest) = (text, none) := by rw [lexeme_append hrest, htaken]
    rw [List.cons_append, scan_of_refused offset (Bool.eq_false_iff.mpr hgap) htaken']
    rfl
  | case4 offset c s hgap text span token htaken ih =>
    obtain ⟨later, rfl⟩ := isPrefix_of_taken htaken
    rw [List.drop_left] at ih ⊢
    have hoffset : offset + byteLength (c :: (text ++ later)) = span.stop + byteLength later := by
      rw [← List.cons_append, byteLength_append, ← Nat.add_assoc]
    have htaken' : lexeme c (text ++ (later ++ rest)) = (text, some token) := by
      rw [← List.append_assoc, lexeme_append hrest, htaken]
    rw [List.cons_append, List.append_assoc,
      scan_of_taken offset (Bool.eq_false_iff.mpr hgap) htaken', ih, hoffset]
    cases scan span.stop later with
    | error error => rfl
    | ok tokens => cases scan (span.stop + byteLength later) rest <;> rfl

end Append

/-- A text that stands later gives the same tokens or the same error, only later. -/
theorem scan_add (offset bytes : Nat) (s : List Char) :
    scan (offset + bytes) s =
      match scan offset s with
      | .error error => .error (error.shift bytes)
      | .ok tokens => .ok (shiftAll tokens bytes) := by
  fun_induction scan offset s with
  | case1 offset =>
    rw [scan]
    rfl
  | case2 offset c s hgap ih => rw [scan, if_pos hgap, Nat.add_right_comm, ih]
  | case3 offset c s hgap text span htaken =>
    rw [scan_of_refused _ (Bool.eq_false_iff.mpr hgap) htaken, Nat.add_right_comm]
    rfl
  | case4 offset c s hgap text span token htaken ih =>
    obtain ⟨later, rfl⟩ := isPrefix_of_taken htaken
    rw [List.drop_left] at ih ⊢
    rw [scan_of_taken _ (Bool.eq_false_iff.mpr hgap) htaken, Nat.add_right_comm, ih]
    cases scan span.stop later <;> rfl

end Token

/-- Two texts with white space between them give the error of the first one, else the error of the
second one behind the first one and the white space, else the tokens of both, those of the second
one behind the first one and the white space. -/
theorem tokenizeWithSpans_separated (first second gap : String) (hgap : gap ≠ "")
    (hblank : ∀ c ∈ gap.toList, Token.isGap c = true) :
    tokenizeWithSpans (first ++ gap ++ second) =
      match tokenizeWithSpans first, tokenizeWithSpans second with
      | .error error, _ => .error error
      | .ok _, .error error => .error (error.shift (first ++ gap).utf8ByteSize)
      | .ok tokens, .ok others =>
        .ok (tokens ++ Token.shiftAll others (first ++ gap).utf8ByteSize) := by
  have hrest : ∀ c ∈ (gap.toList ++ second.toList).head?, continuesLexeme c = false := by
    intro c hc
    obtain ⟨d, others, hcons⟩ := List.exists_cons_of_ne_nil (String.toList_eq_nil_iff.not.mpr hgap)
    obtain rfl : d = c := by simpa [hcons] using hc
    exact continuesLexeme_of_isGap (hblank d (by simp [hcons]))
  have hbytes : 0 + Token.byteLength first.toList + Token.byteLength gap.toList =
      0 + (first ++ gap).utf8ByteSize := by
    simp only [Token.byteLength_eq, String.ofList_toList, String.utf8ByteSize_append, Nat.add_assoc]
  rw [tokenizeWithSpans, String.toList_append, String.toList_append, List.append_assoc,
    Token.scan_append hrest, Token.scan_gap _ hblank, hbytes, Token.scan_add]
  unfold tokenizeWithSpans
  cases Token.scan 0 first.toList with
  | error error => rfl
  | ok tokens => cases Token.scan 0 second.toList <;> rfl

/-- A number does not get a fraction from behind white space. -/
theorem number_apart_from_point :
    ("\t " ≠ "" ∧ ∀ c ∈ "\t ".toList, Token.isGap c = true) ∧
      tokenizeWithSpans ("-16" ++ "\t " ++ ".5") = .error ⟨⟨5, 6⟩, "."⟩ := by
  have hgap : "\t " ≠ "" := by decide
  have hblank : ∀ c ∈ "\t ".toList, Token.isGap c = true := List.all_eq_true.mp (by decide)
  have hnumber : Token.lexeme '-' (['1', '6'] ++ []) = (['1', '6'], some (.integer (-16))) := rfl
  have hpoint : Token.lexeme '.' ['5'] = ([], none) := rfl
  have hfirst : tokenizeWithSpans "-16" = .ok [(.integer (-16), ⟨0, 3⟩)] := by
    have hscan := Token.scan_of_taken 0 (by decide) hnumber
    rw [Token.scan] at hscan
    exact hscan
  have hsecond : tokenizeWithSpans ".5" = .error ⟨⟨0, 1⟩, "."⟩ :=
    Token.scan_of_refused 0 (by decide) hpoint
  have hshift : LexError.shift ⟨⟨0, 1⟩, "."⟩ ("-16" ++ "\t ").utf8ByteSize =
      ⟨⟨5, 6⟩, "."⟩ := by decide
  have hwhole := tokenizeWithSpans_separated "-16" ".5" "\t " hgap hblank
  rw [hfirst, hsecond] at hwhole
  exact ⟨⟨hgap, hblank⟩, hwhole.trans (congrArg Except.error hshift)⟩

end MessageGrammar
