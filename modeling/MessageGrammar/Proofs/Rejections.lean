import MessageGrammar.Proofs.Factorization

/-!
# Rejected texts

A text is rejected at the first place where no lexeme stands or where the longest one is a whole
number of more than 64 bits. What stands before this place is a message: cutting the text there does
not change the lexemes before it, since a lexeme that ends before some characters also ends before
fewer of them.
-/

namespace MessageGrammar

namespace Lexeme

/-- The lexeme stands at the beginning of a text. -/
def Matches (lexeme : Lexeme) (text : List Char) : Prop :=
  lexeme.Spelled ∧ lexeme.text <+: text

/-- No longer lexeme stands at the beginning of a text. -/
def Longest (lexeme : Lexeme) (text : List Char) : Prop :=
  lexeme.Matches text ∧ ∀ other : Lexeme, other.Matches text →
    other.text.length ≤ lexeme.text.length

/-- Why the characters `fragment` at the beginning of a text denote no token. -/
inductive Refused (text fragment : List Char) : Prop where
  /-- No lexeme stands at the beginning of the text. -/
  | unknown (hnone : ∀ lexeme : Lexeme, ¬lexeme.Matches text)
  /-- The longest lexeme is a whole number of more than 64 bits. -/
  | large (negative : Bool) (digits : List Char)
    (hlongest : (integer negative digits).Longest text)
    (hrange : ¬(-2 ^ 63 ≤ wholeNumber negative digits ∧ wholeNumber negative digits < 2 ^ 63))
    (hfragment : (integer negative digits).text = fragment)

variable {lexeme : Lexeme} {c : Char} {text rest more : List Char}

/-- A minus sign, if there is one. -/
def minus? (negative : Bool) : Option Char :=
  if negative then some '-' else none

/-- A whole number consists of its sign and its digits. -/
theorem text_integer (negative : Bool) (digits : List Char) :
    (integer negative digits).text = (minus? negative).toList ++ digits := by
  cases negative <;> rfl

/-- A lexeme that ends before some characters ends before fewer of them. -/
theorem Ends.of_append (h : lexeme.Ends (rest ++ more)) : lexeme.Ends rest := by
  have hhead : ∀ c ∈ rest.head?, c ∈ (rest ++ more).head? := by
    intro c hc
    rw [List.head?_append, Option.mem_def.mp hc]
    rfl
  cases lexeme with
  | word letters => exact fun c hc => h c (hhead c hc)
  | integer negative digits =>
    refine ⟨fun c hc => h.1 c (hhead c hc), ?_⟩
    by_contra hne
    obtain ⟨r, rfl, htake⟩ := Token.exists_of_fractionDigits hne
    have hall : (r ++ more).takeWhile Char.isDigit = [] := h.2
    cases r with
    | nil => exact hne htake
    | cons d r =>
      rw [htake] at hne
      cases hd : d.isDigit <;> simp [hd] at hall hne
  | float sign whole fraction => exact fun c hc => h c (hhead c hc)
  | delimiter mark => trivial

/-- A whole number is carried on by the digits behind it, and to a decimal number if a point with
digits follows. -/
theorem exists_ends_of_integer {negative : Bool} {digits : List Char}
    (h : Text.Run Char.isDigit digits) (after : List Char) :
    ∃ (longer : Lexeme) (rest : List Char), longer.Spelled ∧ longer.Ends rest ∧
      (integer negative digits).text ++ after = longer.text ++ rest ∧
        (integer negative digits).text.length ≤ longer.text.length := by
  have hdigits := h.append_takeWhile after
  have hsplit : digits ++ after = digits ++ after.takeWhile Char.isDigit ++
      after.dropWhile Char.isDigit := by
    rw [List.append_assoc, List.takeWhile_append_dropWhile]
  by_cases hnone : Token.fractionDigits (after.dropWhile Char.isDigit) = []
  · refine ⟨integer negative (digits ++ after.takeWhile Char.isDigit),
      after.dropWhile Char.isDigit, hdigits, ⟨Text.head?_dropWhile Char.isDigit after, hnone⟩,
      ?_, ?_⟩
    · rw [text_integer, text_integer, List.append_assoc, hsplit, ← List.append_assoc]
    · simp [text_integer]
  · obtain ⟨r, hr, htake⟩ := Token.exists_of_fractionDigits hnone
    rw [htake] at hnone
    have hsign : ∀ c ∈ minus? negative, c = '-' ∨ c = '+' := by
      cases negative <;> simp [minus?]
    have hfraction : Text.Run Char.isDigit (r.takeWhile Char.isDigit) :=
      ⟨hnone, fun c hc => List.mem_takeWhile_imp hc⟩
    refine ⟨float (minus? negative) (digits ++ after.takeWhile Char.isDigit)
      (r.takeWhile Char.isDigit), r.dropWhile Char.isDigit, ⟨hsign, hdigits, hfraction⟩,
      Text.head?_dropWhile Char.isDigit r, ?_, ?_⟩
    · rw [text_integer, List.append_assoc, hsplit, hr, Lexeme.text]
      simp only [List.append_assoc, List.cons_append, List.takeWhile_append_dropWhile]
    · rw [text_integer, Lexeme.text]
      simp only [List.length_append]
      omega

/-- A lexeme at the beginning of a text can be carried on until it ends. -/
theorem Matches.exists_ends (h : lexeme.Matches text) :
    ∃ (longer : Lexeme) (rest : List Char), longer.Spelled ∧ longer.Ends rest ∧
      text = longer.text ++ rest ∧ lexeme.text.length ≤ longer.text.length := by
  obtain ⟨hspelled, after, rfl⟩ := h
  cases lexeme with
  | word letters =>
    refine ⟨word (letters ++ after.takeWhile Char.isAlpha), after.dropWhile Char.isAlpha,
      hspelled.append_takeWhile after, Text.head?_dropWhile Char.isAlpha after, ?_, ?_⟩
    · rw [Lexeme.text, Lexeme.text, List.append_assoc, List.takeWhile_append_dropWhile]
    · simp [Lexeme.text]
  | integer negative digits => exact exists_ends_of_integer hspelled after
  | float sign whole fraction =>
    obtain ⟨hsign, hwhole, hfraction⟩ := hspelled
    refine ⟨float sign whole (fraction ++ after.takeWhile Char.isDigit),
      after.dropWhile Char.isDigit, ⟨hsign, hwhole, hfraction.append_takeWhile after⟩,
      Text.head?_dropWhile Char.isDigit after, ?_, ?_⟩
    · simp only [Lexeme.text, List.append_assoc, List.cons_append, List.takeWhile_append_dropWhile]
    · simp [Lexeme.text]
  | delimiter mark => exact ⟨delimiter mark, after, hspelled, trivial, rfl, Nat.le_refl _⟩

/-- Only whole numbers of more than 64 bits denote nothing. -/
theorem exists_of_token?_eq_none (h : lexeme.Spelled) (hnone : lexeme.token? = none) :
    ∃ negative digits, lexeme = integer negative digits ∧
      ¬(-2 ^ 63 ≤ wholeNumber negative digits ∧ wholeNumber negative digits < 2 ^ 63) := by
  cases lexeme with
  | word letters => exact absurd hnone (by simp [token?])
  | integer negative digits =>
    refine ⟨negative, digits, rfl, fun hrange => ?_⟩
    exact absurd (hnone.symm.trans (if_pos hrange)) (by simp)
  | float sign whole fraction =>
    obtain ⟨hsign, hwhole, hfraction⟩ := h
    have hvalue := Decimal.ofText?_of_parts hsign hwhole hfraction
    rw [token?, Lexeme.text, hvalue] at hnone
    exact absurd hnone (by simp)
  | delimiter mark => exact absurd hnone (by simp [token?])

/-- Where a lexeme stands, one that is at least as long is taken, with what it denotes. -/
theorem Matches.exists_taken {s : List Char} (h : lexeme.Matches (c :: s)) :
    ∃ longer : Lexeme, longer.Matches (c :: s) ∧ longer.text = c :: (Token.lexeme c s).1 ∧
      longer.token? = (Token.lexeme c s).2 ∧ lexeme.text.length ≤ longer.text.length := by
  obtain ⟨longer, rest, hspelled, hends, hs, hlength⟩ := h.exists_ends
  obtain ⟨d, others, hlonger, -⟩ := hspelled.exists_head
  rw [hlonger, List.cons_append] at hs
  obtain ⟨rfl, rfl⟩ := List.cons.inj hs
  have htaken := taken_of_ends hspelled hends hlonger
  rw [htaken]
  exact ⟨longer, ⟨hspelled, rest, by rw [hlonger, List.cons_append]⟩, hlonger, rfl, hlength⟩

/-- Where characters are taken without a token, there is a reason. -/
theorem refused_of_taken {s : List Char} (h : Token.lexeme c s = (text, none)) :
    Refused (c :: s) (c :: text) := by
  by_cases hmatch : ∃ lexeme : Lexeme, lexeme.Matches (c :: s)
  · obtain ⟨lexeme, hlexeme⟩ := hmatch
    obtain ⟨longest, hmatches, htext, htoken, -⟩ := hlexeme.exists_taken
    rw [h] at htext htoken
    obtain ⟨negative, digits, rfl, hrange⟩ := exists_of_token?_eq_none hmatches.1 htoken
    refine .large negative digits ⟨hmatches, fun other hother => ?_⟩ hrange htext
    obtain ⟨longer, -, hsame, -, hlength⟩ := hother.exists_taken
    rw [h] at hsame
    rwa [htext, ← hsame]
  · exact .unknown (not_exists.mp hmatch)

end Lexeme

namespace Token

/-- Where scanning ends with an error, the text before the place is scanned into tokens, and at the
place a text is refused. -/
theorem exists_of_scan_error {offset : Nat} {s : List Char} {error : LexError}
    (h : scan offset s = .error error) :
    ∃ (before : List Char) (c : Char) (text after : List Char),
      s = before ++ c :: (text ++ after) ∧ (∃ tokens, scan offset before = .ok tokens) ∧
        isGap c = false ∧ lexeme c (text ++ after) = (text, none) ∧
        error = ⟨⟨offset + byteLength before, offset + byteLength (before ++ c :: text)⟩,
          String.ofList (c :: text)⟩ := by
  -- Before the place, every lexeme ends where it does in the whole text, and so has the same token.
  fun_induction scan offset s with
  | case1 offset => exact absurd h (by simp)
  | case2 offset c s hgap ih =>
    obtain ⟨before, d, text, after, rfl, ⟨tokens, hbefore⟩, hd, htaken, rfl⟩ := ih h
    refine ⟨c :: before, d, text, after, rfl, ⟨tokens, ?_⟩, hd, htaken, ?_⟩
    · rw [scan, if_pos hgap, hbefore]
    · simp only [List.cons_append, byteLength, Nat.add_assoc]
  | case3 offset c s hgap text span htaken =>
    obtain rfl : _ = error := Except.error.inj h
    obtain ⟨after, rfl⟩ := isPrefix_of_taken htaken
    exact ⟨[], c, text, after, rfl, ⟨[], scan.eq_1 offset⟩, Bool.eq_false_iff.mpr hgap, htaken, rfl⟩
  | case4 offset c s hgap text span token htaken ih =>
    obtain ⟨lexeme, rest, hspelled, hends, htoken, htext, rfl⟩ := Lexeme.exists_of_taken htaken
    rw [List.drop_left] at h ih
    have hlater : scan span.stop rest = .error error := by
      cases hscan : scan span.stop rest with
      | error _ =>
        rw [hscan] at h
        exact h
      | ok _ => simp [hscan, Except.map] at h
    obtain ⟨before, d, text', after, rfl, ⟨tokens, hbefore⟩, hd, htaken', rfl⟩ := ih hlater
    have hscan := scan_lexeme offset hspelled (hends.of_append) htoken
    rw [htext, hbefore] at hscan
    refine ⟨c :: text ++ before, d, text', after, ?_, ⟨_, hscan⟩, hd, htaken', ?_⟩
    · simp only [List.cons_append, List.append_assoc]
    · simp only [span, List.append_assoc, byteLength_append, Nat.add_assoc]

end Token

/-- What an error says about the place between two texts where it stands. -/
structure LexError.Between (error : LexError) (before after : String) : Prop where
  /-- The rejected text stands on its bytes. -/
  span : error.span = ⟨before.utf8ByteSize, (before ++ error.fragment).utf8ByteSize⟩
  /-- There are such bytes. -/
  nonempty : error.span.start < error.span.stop
  /-- What stands before them is a message. -/
  message : ∃ tokens, tokenizeWithSpans before = .ok tokens
  /-- The rejected text does not start with white space. -/
  solid : ∃ c ∈ (error.fragment ++ after).toList.head?, Token.isGap c = false
  /-- There is a reason to reject it, with all characters behind it in view. -/
  refused : Lexeme.Refused (error.fragment ++ after).toList error.fragment.toList

/-- A text that is no message is one up to a place where no lexeme stands or the longest one is a
whole number of more than 64 bits, and the error tells this place. -/
theorem exists_between_of_tokenizeWithSpans {source : String} {error : LexError}
    (h : tokenizeWithSpans source = .error error) :
    ∃ before after : String, before ++ error.fragment ++ after = source ∧
      error.Between before after := by
  obtain ⟨before, c, text, after, hsource, ⟨tokens, hbefore⟩, hgap, htaken, rfl⟩ :=
    Token.exists_of_scan_error h
  have hbytes : (String.ofList before ++ String.ofList (c :: text)).utf8ByteSize =
      0 + Token.byteLength (before ++ c :: text) := by
    rw [← String.ofList_append, ← Token.byteLength_eq, Nat.zero_add]
  have hpos : 0 < c.utf8Size := c.utf8Size_pos
  have hrest : (String.ofList (c :: text) ++ String.ofList after).toList =
      c :: (text ++ after) := by
    rw [← String.ofList_append, String.toList_ofList, List.cons_append]
  refine ⟨String.ofList before, String.ofList after, ?_, ?span, ?nonempty, ⟨tokens, ?message⟩,
    ?solid, ?refused⟩
  · rw [← String.ofList_append, ← String.ofList_append, List.append_assoc, List.cons_append,
      ← hsource, String.ofList_toList]
  case span => rw [hbytes, ← Token.byteLength_eq, Nat.zero_add]
  case nonempty =>
    rw [Token.byteLength_append, Token.byteLength]
    dsimp only
    omega
  case message => rw [tokenizeWithSpans, String.toList_ofList, hbefore]
  case solid =>
    rw [hrest]
    exact ⟨c, rfl, hgap⟩
  case refused =>
    rw [hrest, String.toList_ofList]
    exact Lexeme.refused_of_taken htaken

/-- A whole number of more than 64 bits is rejected behind a mark. -/
theorem large_number_between :
    tokenizeWithSpans ", -9223372036854775809é" = .error ⟨⟨2, 22⟩, "-9223372036854775809"⟩ ∧
      ∃ before after : String,
        before ++ "-9223372036854775809" ++ after = ", -9223372036854775809é" ∧
          LexError.Between ⟨⟨2, 22⟩, "-9223372036854775809"⟩ before after := by
  have hsource : ", -9223372036854775809é".toList =
      ',' :: ([] ++ ([' '] ++ '-' :: "9223372036854775809é".toList)) := by decide
  have hmark : ∀ rest, Token.lexeme ',' ([] ++ rest) = ([], some (.delimiter ',')) :=
    fun _ => rfl
  have hnumber : Token.lexeme '-' "9223372036854775809é".toList =
      ("9223372036854775809".toList, none) := rfl
  have hfragment : String.ofList ('-' :: "9223372036854775809".toList) =
      "-9223372036854775809" := by decide
  have hbytes : Token.byteLength ('-' :: "9223372036854775809".toList) = 20 := by decide
  have herror : tokenizeWithSpans ", -9223372036854775809é" =
      .error ⟨⟨2, 22⟩, "-9223372036854775809"⟩ := by
    rw [tokenizeWithSpans, hsource, Token.scan_of_taken 0 (by decide) (hmark _),
      Token.scan_gap _ (List.forall_mem_singleton.mpr (by decide)),
      Token.scan_of_refused _ (by decide) hnumber, hfragment, hbytes]
    rfl
  exact ⟨herror, exists_between_of_tokenizeWithSpans herror⟩

end MessageGrammar
