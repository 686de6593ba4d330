import Mathlib.Data.List.Chain
import MessageGrammar.Proofs.Lexemes

/-!
# Factorizations of a text

A text consists of tokens exactly if it can be cut into lexemes with white space around them, where
two lexemes touch only if the second one does not carry on the first one. There is at most one way
to cut it, and the longest lexeme at every position finds it.
-/

namespace MessageGrammar

/-- A lexeme of a text with the token that it denotes, and the white space behind it. -/
@[ext]
structure Piece where
  /-- The spelling of the token. -/
  lexeme : Lexeme
  /-- The token. -/
  token : Token
  /-- The characters up to the next lexeme. -/
  gap : List Char
  /-- The lexeme follows its rule. -/
  spelled : lexeme.Spelled
  /-- The lexeme denotes the token. -/
  denotes : lexeme.token? = some token
  /-- The characters up to the next lexeme are white space. -/
  blank : ∀ c ∈ gap, Token.isGap c = true

namespace Piece

/-- The characters of a piece. -/
def text (piece : Piece) : List Char :=
  piece.lexeme.text ++ piece.gap

/-- The characters of some pieces in a row. -/
def join (pieces : List Piece) : List Char :=
  pieces.flatMap text

/-- White space stands between two words, and between a number and a lexeme that starts with a
digit. -/
def Apart (first second : Piece) : Prop :=
  first.lexeme.isWord = true ∧ second.lexeme.isWord = true ∨
      first.lexeme.isNumeral = true ∧ (∃ c ∈ second.lexeme.text.head?, c.isDigit = true) →
    first.gap ≠ []

/-- The tokens of some pieces that start at byte `offset`, with the bytes of their lexemes. -/
def place (offset : Nat) : List Piece → List (Token × Span)
  | [] => []
  | piece :: pieces =>
    (piece.token, ⟨offset, offset + (String.ofList piece.lexeme.text).utf8ByteSize⟩) ::
      place (offset + (String.ofList piece.text).utf8ByteSize) pieces

end Piece

/-- One way to cut a text into lexemes and white space. -/
structure Factorization (source : List Char) where
  /-- The characters before the first lexeme. -/
  lead : List Char
  /-- The lexemes in order, each with the white space behind it. -/
  pieces : List Piece
  /-- Nothing is left out. -/
  whole : lead ++ Piece.join pieces = source
  /-- The characters before the first lexeme are white space. -/
  blank : ∀ c ∈ lead, Token.isGap c = true
  /-- Lexemes that would be taken together stand apart. -/
  apart : pieces.IsChain Piece.Apart

/-- The tokens of a text that is cut in a certain way, with the bytes of their lexemes. -/
def Factorization.tokens {source : List Char} (factorization : Factorization source) :
    List (Token × Span) :=
  Piece.place (String.ofList factorization.lead).utf8ByteSize factorization.pieces

namespace Lexeme

variable {lexeme : Lexeme} {rest : List Char}

/-- A lexeme is not carried on by a character that no lexeme of its kind goes on with. -/
theorem ends_of_head? (h : ∀ c ∈ rest.head?, c ≠ '.' ∧ (lexeme.isWord = true → c.isAlpha = false) ∧
    (lexeme.isNumeral = true → c.isDigit = false)) : lexeme.Ends rest := by
  have hfraction : Token.fractionDigits rest = [] := by
    by_contra hne
    obtain ⟨r, rfl, -⟩ := Token.exists_of_fractionDigits hne
    exact (h '.' rfl).1 rfl
  cases lexeme with
  | word letters => exact fun c hc => (h c hc).2.1 rfl
  | integer negative digits => exact ⟨fun c hc => (h c hc).2.2 rfl, hfraction⟩
  | float sign whole fraction => exact fun c hc => (h c hc).2.2 rfl
  | delimiter mark => trivial

/-- A word ends before another character than a letter. -/
theorem Ends.isAlpha_eq_false (h : lexeme.Ends rest) (hword : lexeme.isWord = true) :
    ∀ c ∈ rest.head?, c.isAlpha = false := by
  cases lexeme with
  | word letters => exact h
  | integer _ _ | float _ _ _ | delimiter _ => exact absurd hword Bool.false_ne_true

/-- A number ends before another character than a digit. -/
theorem Ends.isDigit_eq_false (h : lexeme.Ends rest) (hnumeral : lexeme.isNumeral = true) :
    ∀ c ∈ rest.head?, c.isDigit = false := by
  cases lexeme with
  | integer negative digits => exact h.1
  | float sign whole fraction => exact h
  | word _ | delimiter _ => exact absurd hnumeral Bool.false_ne_true

end Lexeme

namespace Token

/-- The length of a text in bytes is that of the string. -/
theorem byteLength_eq (text : List Char) :
    byteLength text = (String.ofList text).utf8ByteSize := by
  induction text with
  | nil => rfl
  | cons c text ih =>
    have hcons : String.ofList (c :: text) = String.singleton c ++ String.ofList text := by simp
    rw [hcons, String.utf8ByteSize_append, String.utf8ByteSize_singleton, byteLength, ih]

/-- The length of two texts in a row. -/
theorem byteLength_append (first second : List Char) :
    byteLength (first ++ second) = byteLength first + byteLength second := by
  induction first with
  | nil => simp [byteLength]
  | cons c first ih => rw [List.cons_append, byteLength, byteLength, ih, Nat.add_assoc]

end Token

namespace Piece

variable {piece : Piece} {pieces : List Piece}

/-- Pieces in a row start with the lexeme of the first one. -/
theorem join_cons (piece : Piece) (pieces : List Piece) :
    join (piece :: pieces) = piece.lexeme.text ++ (piece.gap ++ join pieces) := by
  rw [join, List.flatMap_cons, text, List.append_assoc]
  rfl

/-- The token of the first piece, and the tokens behind its lexeme and its white space. -/
theorem place_cons (offset : Nat) (piece : Piece) (pieces : List Piece) :
    place offset (piece :: pieces) =
      (piece.token, ⟨offset, offset + Token.byteLength piece.lexeme.text⟩) ::
        place (offset + Token.byteLength piece.lexeme.text + Token.byteLength piece.gap)
          pieces := by
  rw [place, ← Token.byteLength_eq, ← Token.byteLength_eq, text, Token.byteLength_append,
    Nat.add_assoc]

/-- In a row of pieces that stand apart where they have to, no lexeme is carried on. -/
theorem ends_of_apart (h : (piece :: pieces).IsChain Apart) :
    piece.lexeme.Ends (piece.gap ++ join pieces) := by
  apply Lexeme.ends_of_head?
  intro c hc
  cases hgap : piece.gap with
  | cons d gap =>
    obtain rfl : d = c := by simpa [hgap] using hc
    have hd : Token.isGap d = true := piece.blank d (by rw [hgap]; exact List.mem_cons_self)
    obtain ⟨hletter, hdigit, hpoint⟩ :=
      continuesLexeme_eq_false_iff.mp (continuesLexeme_of_isGap hd)
    exact ⟨hpoint, fun _ => hletter, fun _ => hdigit⟩
  | nil =>
    cases pieces with
    | nil => simp [hgap, join] at hc
    | cons second others =>
      obtain ⟨d, text, htext, hstarts, hword, hnumeral⟩ := second.spelled.exists_head
      obtain rfl : d = c := by simpa [hgap, join_cons, htext] using hc
      have hpoint : d ≠ '.' := by
        rintro rfl
        exact absurd hstarts (by decide)
      have hapart : ¬(piece.lexeme.isWord = true ∧ second.lexeme.isWord = true ∨
          piece.lexeme.isNumeral = true ∧
            ∃ c ∈ second.lexeme.text.head?, c.isDigit = true) := by
        intro htouch
        exact (List.isChain_cons_cons.mp h).1 htouch hgap
      refine ⟨hpoint, fun hfirst => ?_, fun hfirst => ?_⟩
      · rw [hword, Bool.eq_false_iff]
        exact fun hsecond => hapart (.inl ⟨hfirst, hsecond⟩)
      · rw [Bool.eq_false_iff]
        exact fun hdigit => hapart (.inr ⟨hfirst, d, by rw [htext]; rfl, hdigit⟩)

/-- A lexeme that is not carried on stands apart from the next one where it has to. -/
theorem apart_of_ends (h : piece.lexeme.Ends (piece.gap ++ join pieces)) :
    ∀ second ∈ pieces.head?, Apart piece second := by
  intro second hsecond htouch hgap
  obtain ⟨others, rfl⟩ := List.head?_eq_some_iff.mp hsecond
  obtain ⟨c, text, htext, -, hword, -⟩ := second.spelled.exists_head
  have hhead : (piece.gap ++ join (second :: others)).head? = some c := by
    simp [hgap, join_cons, htext]
  rcases htouch with ⟨hfirst, hsecond⟩ | ⟨hfirst, d, hd, hdigit⟩
  · have hletter := h.isAlpha_eq_false hfirst c hhead
    exact absurd (hword.trans hsecond) (by simp [hletter])
  · obtain rfl : c = d := by simpa [htext] using hd
    have hother := h.isDigit_eq_false hfirst c hhead
    exact absurd hdigit (by simp [hother])

/-- Pieces in a row do not start with white space. -/
theorem isGap_head?_join (pieces : List Piece) :
    ∀ c ∈ (join pieces).head?, Token.isGap c = false := by
  intro c hc
  cases pieces with
  | nil => simp [join] at hc
  | cons piece pieces =>
    obtain ⟨d, text, htext, hstarts, -⟩ := piece.spelled.exists_head
    obtain rfl : d = c := by simpa [join_cons, htext] using hc
    cases hgap : Token.isGap d with
    | false => rfl
    | true => exact absurd hstarts (by simp [startsLexeme_of_isGap hgap])

/-- The first lexeme of pieces in a row is known from the characters, and so are all characters
behind it. -/
theorem lexeme_eq_of_join_eq {first second : Piece} {others others' : List Piece}
    (hfirst : (first :: others).IsChain Apart) (hsecond : (second :: others').IsChain Apart)
    (h : join (first :: others) = join (second :: others')) :
    first.lexeme = second.lexeme ∧ first.gap ++ join others = second.gap ++ join others' := by
  obtain ⟨c, text, htext, -⟩ := first.spelled.exists_head
  obtain ⟨c', text', htext', -⟩ := second.spelled.exists_head
  have htaken := Lexeme.taken_of_ends first.spelled (ends_of_apart hfirst) htext
  have htaken' := Lexeme.taken_of_ends second.spelled (ends_of_apart hsecond) htext'
  rw [join_cons, join_cons, htext, htext'] at h
  obtain ⟨rfl, hrest⟩ := List.cons.inj h
  have hsame : text = text' := by
    calc text = (Token.lexeme c (text ++ (first.gap ++ join others))).1 := by rw [htaken]
      _ = (Token.lexeme c (text' ++ (second.gap ++ join others'))).1 := by
        rw [show text ++ (first.gap ++ join others) = text' ++ (second.gap ++ join others')
          from hrest]
      _ = text' := by rw [htaken']
  subst hsame
  have hlexeme := first.spelled.eq_of_text_eq second.spelled (htext.trans htext'.symm)
  exact ⟨hlexeme, List.append_cancel_left hrest⟩

/-- A lexeme has one token only. -/
theorem eq_of_lexeme_eq {first second : Piece} (hlexeme : first.lexeme = second.lexeme)
    (hgap : first.gap = second.gap) : first = second := by
  have htoken : some first.token = some second.token := by
    rw [← first.denotes, ← second.denotes, hlexeme]
  exact Piece.ext hlexeme (Option.some.inj htoken) hgap

/-- White space before pieces in a row is known from all the characters. -/
theorem gap_eq_of_append_eq {first second : List Piece} {gap gap' : List Char}
    (hgap : ∀ c ∈ gap, Token.isGap c = true) (hgap' : ∀ c ∈ gap', Token.isGap c = true)
    (h : gap ++ join first = gap' ++ join second) : gap = gap' ∧ join first = join second := by
  have hsame : gap = gap' := by
    calc gap = (gap ++ join first).takeWhile Token.isGap :=
          (Text.takeWhile_append_of_head? hgap (isGap_head?_join first)).symm
      _ = (gap' ++ join second).takeWhile Token.isGap := by rw [h]
      _ = gap' := Text.takeWhile_append_of_head? hgap' (isGap_head?_join second)
  subst hsame
  exact ⟨rfl, List.append_cancel_left h⟩

/-- Pieces in a row are known from their characters. -/
theorem eq_of_join_eq {first second : List Piece} (hfirst : first.IsChain Apart)
    (hsecond : second.IsChain Apart) (h : join first = join second) : first = second := by
  have hne : ∀ (piece : Piece) (pieces : List Piece), join (piece :: pieces) ≠ join [] := by
    intro piece pieces heq
    obtain ⟨c, text, htext, -⟩ := piece.spelled.exists_head
    rw [join_cons, htext] at heq
    exact List.cons_ne_nil _ _ heq
  induction first generalizing second with
  | nil =>
    cases second with
    | nil => rfl
    | cons piece pieces => exact absurd h.symm (hne piece pieces)
  | cons piece pieces ih =>
    cases second with
    | nil => exact absurd h (hne piece pieces)
    | cons piece' pieces' =>
      obtain ⟨hlexeme, hbehind⟩ := lexeme_eq_of_join_eq hfirst hsecond h
      obtain ⟨hgap, hothers⟩ := gap_eq_of_append_eq piece.blank piece'.blank hbehind
      have hpieces : pieces = pieces' := ih hfirst.tail hsecond.tail hothers
      rw [eq_of_lexeme_eq hlexeme hgap, hpieces]

end Piece

namespace Token

variable {c : Char} {s text rest : List Char}

/-- What is taken from a text stands at its beginning. -/
theorem isPrefix_of_taken {token? : Option Token} (h : lexeme c s = (text, token?)) :
    text <+: s := by
  simpa [h] using lexeme_isPrefix c s

/-- Where nothing but a refused text is found, scanning ends. -/
theorem scan_of_refused (offset : Nat) (hgap : isGap c = false)
    (htaken : lexeme c s = (text, none)) :
    scan offset (c :: s) =
      .error ⟨⟨offset, offset + byteLength (c :: text)⟩, String.ofList (c :: text)⟩ := by
  rw [scan, if_neg (by simp [hgap]), htaken]

/-- Where a token is found, scanning goes on behind it. -/
theorem scan_of_taken (offset : Nat) {token : Token} (hgap : isGap c = false)
    (htaken : lexeme c (text ++ rest) = (text, some token)) :
    scan offset (c :: (text ++ rest)) =
      (scan (offset + byteLength (c :: text)) rest).map
        ((token, ⟨offset, offset + byteLength (c :: text)⟩) :: ·) := by
  rw [scan, if_neg (by simp [hgap]), htaken]
  dsimp only
  rw [List.drop_left]

/-- White space before a text only moves it. -/
theorem scan_gap (offset : Nat) {gap : List Char} (h : ∀ c ∈ gap, isGap c = true) :
    scan offset (gap ++ s) = scan (offset + byteLength gap) s := by
  induction gap generalizing offset with
  | nil => rfl
  | cons c gap ih =>
    obtain ⟨hc, hgap⟩ := List.forall_mem_cons.mp h
    rw [List.cons_append, scan, if_pos hc, ih _ hgap, byteLength, Nat.add_assoc]

/-- A lexeme at the beginning of a text that is not carried on gives its token. -/
theorem scan_lexeme (offset : Nat) {lexeme : Lexeme} {token : Token} (h : lexeme.Spelled)
    (hrest : lexeme.Ends rest) (htoken : lexeme.token? = some token) :
    scan offset (lexeme.text ++ rest) =
      (scan (offset + byteLength lexeme.text) rest).map
        ((token, ⟨offset, offset + byteLength lexeme.text⟩) :: ·) := by
  obtain ⟨c, text, htext, hstarts, -⟩ := h.exists_head
  have hgap : isGap c = false := by
    cases hc : isGap c with
    | false => rfl
    | true => exact absurd hstarts (by simp [startsLexeme_of_isGap hc])
  have htaken := Lexeme.taken_of_ends h hrest htext
  rw [htoken] at htaken
  rw [htext, List.cons_append, scan_of_taken offset hgap htaken]

/-- Pieces that stand apart where they have to are scanned into their tokens. -/
theorem scan_pieces (offset : Nat) {pieces : List Piece} (h : pieces.IsChain Piece.Apart) :
    scan offset (Piece.join pieces) = .ok (Piece.place offset pieces) := by
  induction pieces generalizing offset with
  | nil => exact scan.eq_1 offset
  | cons piece pieces ih =>
    have hends := Piece.ends_of_apart h
    rw [Piece.join_cons, scan_lexeme offset piece.spelled hends piece.denotes, scan_gap _ piece.blank,
      ih _ h.tail, Piece.place_cons]
    rfl

/-- A text that is scanned into tokens can be cut into pieces with these tokens. -/
theorem exists_pieces_of_scan {offset : Nat} {tokens : List (Token × Span)}
    (h : scan offset s = .ok tokens) :
    ∃ (lead : List Char) (pieces : List Piece), lead ++ Piece.join pieces = s ∧
      (∀ c ∈ lead, isGap c = true) ∧ pieces.IsChain Piece.Apart ∧
      Piece.place (offset + byteLength lead) pieces = tokens := by
  fun_induction scan offset s generalizing tokens with
  | case1 offset =>
    obtain rfl : [] = tokens := Except.ok.inj h
    exact ⟨[], [], rfl, by simp, .nil, rfl⟩
  | case2 offset c s hgap ih =>
    obtain ⟨lead, pieces, hjoin, hlead, hapart, hplace⟩ := ih h
    refine ⟨c :: lead, pieces, ?_, List.forall_mem_cons.mpr ⟨hgap, hlead⟩, hapart, ?_⟩
    · rw [List.cons_append, hjoin]
    · rw [byteLength, ← Nat.add_assoc, hplace]
  | case3 offset c s hgap text htaken => exact absurd h (by simp)
  | case4 offset c s hgap text span token htaken =>
    rename_i ih
    obtain ⟨lexeme, rest, hspelled, hends, htoken, htext, rfl⟩ := Lexeme.exists_of_taken htaken
    rw [List.drop_left] at h ih
    cases hscan : scan span.stop rest with
    | error e => simp [hscan, Except.map] at h
    | ok later =>
      obtain ⟨lead, pieces, rfl, hlead, hapart, hplace⟩ := ih hscan
      let piece : Piece := ⟨lexeme, token, lead, hspelled, htoken, hlead⟩
      have hchain : (piece :: pieces).IsChain Piece.Apart :=
        List.isChain_cons.mpr ⟨Piece.apart_of_ends hends, hapart⟩
      refine ⟨[], piece :: pieces, ?_, by simp, hchain, ?_⟩
      · rw [Piece.join_cons, htext]
        rfl
      · rw [hscan] at h
        calc Piece.place offset (piece :: pieces)
            = (token, ⟨offset, offset + byteLength lexeme.text⟩) ::
                Piece.place (offset + byteLength lexeme.text + byteLength lead) pieces :=
              Piece.place_cons offset piece pieces
          _ = (token, span) :: later := by rw [htext, hplace]
          _ = tokens := Except.ok.inj h

end Token

/-- A text is a message with certain tokens exactly if it can be cut into the lexemes of these
tokens and white space, and it can be cut in one way at most. -/
theorem tokenizeWithSpans_eq_ok_iff_factorization (source : String) :
    (∀ tokens, tokenizeWithSpans source = .ok tokens ↔
      ∃ factorization : Factorization source.toList, factorization.tokens = tokens) ∧
    Subsingleton (Factorization source.toList) := by
  refine ⟨fun tokens => ⟨fun h => ?_, fun h => ?_⟩, ⟨fun first second => ?_⟩⟩
  · obtain ⟨lead, pieces, hwhole, hlead, hapart, hplace⟩ := Token.exists_pieces_of_scan h
    rw [Nat.zero_add, Token.byteLength_eq] at hplace
    exact ⟨⟨lead, pieces, hwhole, hlead, hapart⟩, hplace⟩
  · obtain ⟨⟨lead, pieces, hwhole, hlead, hapart⟩, htokens⟩ := h
    rw [tokenizeWithSpans, ← hwhole, Token.scan_gap 0 hlead, Token.scan_pieces _ hapart,
      ← htokens, Factorization.tokens, ← Token.byteLength_eq, Nat.zero_add]
  · obtain ⟨lead, pieces, hwhole, hlead, hapart⟩ := first
    obtain ⟨lead', pieces', hwhole', hlead', hapart'⟩ := second
    obtain ⟨rfl, hjoin⟩ :=
      Piece.gap_eq_of_append_eq hlead hlead' (hwhole.trans hwhole'.symm)
    obtain rfl := Piece.eq_of_join_eq hapart hapart' hjoin
    rfl

end MessageGrammar
