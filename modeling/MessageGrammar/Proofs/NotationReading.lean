import MessageGrammar.Proofs.NotationSoundness
import MessageGrammar.Proofs.Runs

/-!
# What stands there is read

Parser by parser, the converse of soundness for the parts of a notation without expressions inside:
names, counts, bounds and strings, and for calls and parentheses once the expression inside is read.
A parser takes what a rule allows from wherever the cursor settles in the same place, as white space
that a rule gives to one part may be read with another one. What follows matters, too: a name or a
number is read to its end, and something that need not be there is not read where it is not.
-/

namespace MessageGrammar.Notation

section Characters

/-- A character that starts a name continues names, too. -/
theorem continuesName_of_startsName {c : Char} (h : Parser.startsName c = true) :
    Parser.continuesName c = true := by
  simp only [Parser.startsName, Parser.continuesName, Char.isAlphanum, Bool.or_eq_true] at h ⊢
  rcases h with h | h
  · exact .inl (.inl h)
  · exact .inr h

/-- A digit continues names. -/
theorem continuesName_of_isDigit {c : Char} (h : c.isDigit = true) :
    Parser.continuesName c = true := by
  simp [Parser.continuesName, Char.isAlphanum, h]

/-- The ranges of the characters that continue names. -/
theorem continuesName_eq (c : Char) :
    Parser.continuesName c = (decide (c.val ≥ 'A'.val ∧ c.val ≤ 'Z'.val) ||
      (c.val ≥ 'a'.val && c.val ≤ 'z'.val) || (c.val ≥ '0'.val && c.val ≤ '9'.val) || c = '_') :=
  rfl

/-- White space does not continue a name. -/
theorem continuesName_eq_false_of_isBlank {c : Char} (h : Text.isBlank c = true) :
    Parser.continuesName c = false := by
  have hunderscore : c ≠ '_' := by
    intro hc
    rw [hc] at h
    exact absurd h (by decide)
  simp only [Text.isBlank, Text.CodePoints.has, Text.whiteSpace, List.any_cons, List.any_nil,
    Bool.or_false, Bool.or_eq_true, Bool.and_eq_true, decide_eq_true_eq] at h
  simp [continuesName_eq, UInt32.le_iff_toNat_le, hunderscore]
  omega

/-- A character of a name is no white space. -/
theorem isBlank_eq_false_of_continuesName {c : Char} (h : Parser.continuesName c = true) :
    Text.isBlank c = false := by
  cases hblank : Text.isBlank c with
  | false => rfl
  | true => exact absurd h (by simp [continuesName_eq_false_of_isBlank hblank])

/-- White space is no digit. -/
theorem isDigit_eq_false_of_isBlank {c : Char} (h : Text.isBlank c = true) : c.isDigit = false := by
  cases hdigit : c.isDigit with
  | false => rfl
  | true =>
    have hblank := isBlank_eq_false_of_continuesName (continuesName_of_isDigit hdigit)
    exact absurd h (by simp [hblank])

/-- What a test finds at every character of a text holds of each of them. -/
theorem forall_mem_of_all {p : Char → Prop} [DecidablePred p] {text : List Char}
    (h : text.all (fun c => decide (p c)) = true) : ∀ c ∈ text, p c :=
  fun c hc => of_decide_eq_true (List.all_eq_true.mp h c hc)

end Characters

namespace Parser

variable {α β : Type}

/-- A parser reads what a rule allows, if white space or one of these characters is next. -/
def Reads (parser : Parser α) (rule : α → Stretch) (next : Char → Prop) : Prop :=
  ∀ a start stop, rule a start stop →
    (∀ c ∈ stop.rest.head?, Text.isBlank c = true ∨ next c) →
      start.settle = start ∧ (parser start).result = some (a, stop)

/-- A parser reads what a rule allows up to white space, if one of these characters is next. -/
def Takes (parser : Parser α) (rule : α → Stretch) (next : Char → Prop) : Prop :=
  ∀ a start stop cursor, rule a start stop → (∀ c ∈ stop.ahead, next c) →
    cursor.settle = start.settle → (parser cursor).result = some (a, stop.settle)

/-- White space around a value belongs to it. -/
theorem takes_padded {parser : Parser α} {rule : α → Stretch} {next : Char → Prop}
    (h : Reads parser rule next) : Takes (padded parser) (fun a => Padded (rule a)) next := by
  intro a start stop cursor hpadded hnext hcursor
  obtain ⟨opened, closed, hbefore, hhere, hafter⟩ := hpadded
  have hfollow : ∀ c ∈ closed.rest.head?, Text.isBlank c = true ∨ next c := by
    intro c hc
    refine (Cursor.head?_rest_cases hc).imp_right fun hahead => ?_
    rw [Cursor.ahead_eq_of_blanks hafter] at hahead
    exact hnext c hahead
  obtain ⟨hsettled, hread⟩ := h a opened closed hhere hfollow
  rw [result_padded, hcursor, Cursor.settle_eq_of_blanks hbefore, hsettled, hread,
    Option.map_some, Cursor.settle_eq_of_blanks hafter]

/-- A mark is read. -/
theorem takes_mark {c : Char} (hc : Text.isBlank c = false) :
    Takes (mark c) (fun _ => Mark c) fun _ => True := by
  refine takes_padded ?_
  intro _ start stop hhere _
  exact ⟨Cursor.settle_of_rest hhere.rest hc, (result_char_eq_some_iff start).mpr hhere⟩

/-- A numeral is read to its end. -/
theorem reads_digits :
    Reads digits (fun text start stop => Spelled text start stop ∧ IsNumeral text)
      fun c => c.isDigit = false := by
  intro text start stop h hnext
  obtain ⟨hspelled, hnumeral⟩ := h
  have hrest := hspelled.rest
  have hstop := hspelled.eq_skip
  rcases hnumeral with rfl | ⟨c, others, rfl, hc, hdigits⟩
  · refine ⟨Cursor.settle_of_rest hrest (by decide), ?_⟩
    unfold digits
    rw [hrest, hstop]
    rfl
  · have hdigit : c.isDigit = true := hdigits c List.mem_cons_self
    have hblank := isBlank_eq_false_of_continuesName (continuesName_of_isDigit hdigit)
    have hrun : (others ++ stop.rest).takeWhile Char.isDigit = others := by
      refine Text.takeWhile_append_of_head? (fun d hd => hdigits d (List.mem_cons_of_mem c hd)) ?_
      intro d hd
      exact (hnext d hd).elim isDigit_eq_false_of_isBlank id
    refine ⟨Cursor.settle_of_rest hrest hblank, ?_⟩
    unfold digits
    rw [hrest]
    simp only [List.cons_append, if_neg hc, hdigit, if_true, hrun]
    rw [← hstop]

/-- A numeral that is not too great is read as its count. -/
theorem reads_count : Reads count Count fun c => c.isDigit = false := by
  intro n start stop h hnext
  obtain ⟨text, hspelled, hnumeral, hvalue⟩ := h
  obtain ⟨hsettled, hread⟩ := reads_digits text start stop ⟨hspelled, hnumeral⟩ hnext
  refine ⟨hsettled, result_andThen.mpr ⟨_, _, result_position start, ?_⟩⟩
  refine result_andThen.mpr ⟨text, stop, hread, ?_⟩
  refine result_andThen.mpr ⟨_, _, result_position stop, ?_⟩
  rw [hvalue, if_pos n.toNat_lt, UInt64.ofNat_toNat]
  rfl

/-- A count is not read where another character than a digit is next. -/
theorem result_padded_count_eq_none {cursor : Cursor}
    (h : ∀ c ∈ cursor.ahead, c.isDigit = false) : (padded count cursor).result = none := by
  rw [result_padded, Option.map_eq_none_iff, Option.eq_none_iff_forall_ne_some]
  intro read hread
  obtain ⟨text, hspelled, hnumeral, -⟩ := sound_count _ _ _ hread
  have hhead : ∃ c others, text = c :: others ∧ c.isDigit = true := by
    rcases hnumeral with rfl | ⟨c, others, rfl, -, hdigits⟩
    · exact ⟨'0', [], rfl, rfl⟩
    · exact ⟨c, others, rfl, hdigits c List.mem_cons_self⟩
  obtain ⟨c, others, rfl, hdigit⟩ := hhead
  have hahead : c ∈ cursor.ahead := by
    rw [Cursor.ahead, hspelled.rest]
    rfl
  rw [h c hahead] at hdigit
  cases hdigit

/-- A value that need not be there is read if it is there, and else the cursor stays. -/
theorem takes_optional {parser : Parser α} {rule : α → Stretch} {next : Char → Prop}
    (h : Takes parser rule next) {a : Option α} {start stop cursor : Cursor}
    (hmaybe : Maybe rule a start stop) (hnext : ∀ c ∈ stop.ahead, next c)
    (hcursor : cursor.settle = start.settle)
    (hnone : start = stop → (parser cursor).result = none) :
    ∃ after, (optional parser cursor).result = some (a, after) ∧ after.settle = stop.settle ∧
      (after = stop.settle ∨ after = cursor ∧ start = stop) := by
  rw [result_optional]
  cases hmaybe with
  | absent =>
    rw [hnone rfl]
    exact ⟨cursor, rfl, hcursor, .inr ⟨rfl, rfl⟩⟩
  | present hpresent =>
    rw [h _ _ _ _ hpresent hnext hcursor]
    exact ⟨stop.settle, rfl, stop.settle_settle, .inl rfl⟩

/-- What comes behind a colon is read. -/
theorem takes_upper : Takes (do mark ':'; optional (padded count)) Upper
    fun c => c.isDigit = false := by
  intro high start stop cursor hupper hnext hcursor
  obtain ⟨place, hmark, hcount⟩ := hupper
  have hread := takes_mark (by decide) () start place cursor hmark (fun _ _ => trivial) hcursor
  have hnone : place = stop → (padded count place.settle).result = none := by
    intro hplace
    refine result_padded_count_eq_none fun c hc => ?_
    rw [Cursor.ahead_settle, hplace] at hc
    exact hnext c hc
  obtain ⟨after, hoptional, -, hafter⟩ := takes_optional (takes_padded reads_count) hcount hnext
    place.settle_settle hnone
  refine result_andThen.mpr ⟨(), place.settle, hread, ?_⟩
  rcases hafter with hafter | ⟨hafter, hplace⟩
  · rw [hoptional, hafter]
  · rw [hoptional, hafter, hplace]

/-- A colon is not read where another character is next. -/
theorem result_upper_eq_none {cursor : Cursor} (h : cursor.ahead ≠ some ':') :
    ((do mark ':'; optional (padded count) : Parser (Option UInt64)) cursor).result = none := by
  rw [result_bind, result_mark_eq_none cursor h]
  rfl

/-- Behind the lower bound there is a colon or the closing bracket. -/
theorem ahead_of_maybe_upper {high : Option (Option UInt64)} {start stop closed : Cursor}
    (hhigh : Maybe Upper high start stop) (hclosed : Spelled [']'] stop closed) :
    start.ahead = some ':' ∨ start.ahead = some ']' := by
  cases hhigh with
  | absent => exact .inr (Cursor.ahead_of_rest hclosed.rest (by decide))
  | present hupper =>
    obtain ⟨place, hmark, -⟩ := hupper
    exact .inl (hmark.ahead_eq (by decide))

/-- The counts between brackets are read up to the closing bracket. The cursor stays at the opening
bracket if there are none. -/
theorem takes_counts {low : Option UInt64} {high : Option (Option UInt64)} {a b c closed : Cursor}
    (hlow : Maybe (fun count => Padded (Count count)) low a b) (hhigh : Maybe Upper high b c)
    (hclosed : Spelled [']'] c closed) :
    ∃ between, (optional (padded count) a).result = some (low, between) ∧
      (optional (do mark ':'; optional (padded count)) between).result = some (high, c) := by
  have hc : c.settle = c := Cursor.settle_of_rest hclosed.rest (by decide)
  have hcahead : c.ahead = some ']' := Cursor.ahead_of_rest hclosed.rest (by decide)
  have hbnext : ∀ d ∈ b.ahead, d.isDigit = false := by
    intro d hd
    rcases ahead_of_maybe_upper hhigh hclosed with hahead | hahead <;>
    · rw [hahead] at hd
      cases hd
      decide
  have hcnext : ∀ d ∈ c.ahead, d.isDigit = false := by
    intro d hd
    rw [hcahead] at hd
    cases hd
    decide
  have hnolow : a = b → (padded count a).result = none := by
    rintro rfl
    exact result_padded_count_eq_none hbnext
  obtain ⟨between, hreadlow, hsettle, hbetween⟩ :=
    takes_optional (takes_padded reads_count) hlow hbnext rfl hnolow
  have hnohigh : b = c →
      ((do mark ':'; optional (padded count) : Parser (Option UInt64)) between).result = none := by
    intro hbc
    refine result_upper_eq_none ?_
    rw [← Cursor.ahead_settle, hsettle, Cursor.ahead_settle, hbc, hcahead]
    decide
  obtain ⟨after, hreadhigh, -, hafter⟩ := takes_optional takes_upper hhigh hcnext hsettle hnohigh
  -- What is absent leaves the cursor where it was, and the rules allow no white space behind it.
  have hafterc : after = c := by
    rcases hafter with hafter | ⟨hafter, hbc⟩
    · rw [hafter, hc]
    rcases hbetween with hbetween | ⟨hbetween, hab⟩
    · rw [hafter, hbetween, hbc, hc]
    · rw [hafter, hbetween, hab, hbc]
  rw [hafterc] at hreadhigh
  exact ⟨between, hreadlow, hreadhigh⟩

/-- Bounds are read. -/
theorem takes_bounds : Takes bounds (fun range => Padded (Range range)) fun _ => True := by
  intro range start stop cursor hpadded _ hcursor
  obtain ⟨opened, closed, hbefore, hrange, hafter⟩ := hpadded
  obtain ⟨a, b, c, hopened, hlow, hhigh, hclosed, hspan⟩ := hrange
  have hsettled : cursor.settle = opened := by
    rw [hcursor, Cursor.settle_eq_of_blanks hbefore]
    exact Cursor.settle_of_rest hopened.rest (by decide)
  obtain ⟨between, hreadlow, hreadhigh⟩ := takes_counts hlow hhigh hclosed
  refine result_andThen.mpr ⟨(), cursor.settle, result_blanks cursor, ?_⟩
  rw [hsettled]
  refine result_andThen.mpr ⟨_, opened, result_position opened, ?_⟩
  refine result_andThen.mpr ⟨(), a, (result_char_eq_some_iff opened).mpr hopened, ?_⟩
  refine result_andThen.mpr ⟨range.low, between, hreadlow, ?_⟩
  refine result_andThen.mpr ⟨range.high, c, hreadhigh, ?_⟩
  refine result_andThen.mpr ⟨(), closed, (result_char_eq_some_iff c).mpr hclosed, ?_⟩
  refine result_andThen.mpr ⟨_, closed, result_position closed, ?_⟩
  refine result_andThen.mpr ⟨(), closed.settle, result_blanks closed, ?_⟩
  rw [← hspan, ← Cursor.settle_eq_of_blanks hafter]
  rfl

/-- Bounds are not read where another character than the opening bracket is next. -/
theorem result_bounds_eq_none {cursor : Cursor} (h : cursor.ahead ≠ some '[') :
    (bounds cursor).result = none := by
  rw [Option.eq_none_iff_forall_ne_some]
  intro read hread
  obtain ⟨opened, closed, hbefore, hrange, -⟩ := sound_bounds _ _ _ hread
  obtain ⟨a, _, _, hopened, -⟩ := hrange
  refine h ?_
  rw [Cursor.ahead_eq_of_blanks hbefore]
  exact Cursor.ahead_of_rest hopened.rest (by decide)

/-- A name is read to its end. -/
theorem reads_identifier :
    Reads identifier (fun text start stop => IsName text.toList ∧ Spelled text.toList start stop)
      fun c => continuesName c = false := by
  intro text start stop h hnext
  obtain ⟨⟨c, others, htext, hc, hothers⟩, hspelled⟩ := h
  rw [htext] at hspelled
  have hrest := hspelled.rest
  have hstop := hspelled.eq_skip
  have hrun : (others ++ stop.rest).takeWhile continuesName = others := by
    refine Text.takeWhile_append_of_head? hothers ?_
    intro d hd
    exact (hnext d hd).elim continuesName_eq_false_of_isBlank id
  have hblank := isBlank_eq_false_of_continuesName (continuesName_of_startsName hc)
  refine ⟨Cursor.settle_of_rest hrest hblank, ?_⟩
  unfold identifier
  rw [hrest]
  simp only [List.cons_append, hc, if_true, hrun]
  rw [← hstop, ← htext, String.ofList_toList]

/-- A name is not read where a character is next that starts none. -/
theorem result_identifier_eq_none {cursor : Cursor} {c : Char} (h : cursor.rest.head? = some c)
    (hc : startsName c = false) : (identifier cursor).result = none := by
  obtain ⟨others, hrest⟩ := List.head?_eq_some_iff.mp h
  unfold identifier
  rw [hrest]
  simp [hc]

/-- What stands between quotes is unquoted up to the closing quote. -/
theorem unquote_of_quoted {written meant : List Char} (h : Quoted written meant)
    (more : List Char) : unquote (written ++ '"' :: more) = some (meant, written.length) := by
  induction h with
  | nil => rfl
  | @plain c written meant hquote hbackslash _ ih =>
    rw [List.cons_append, unquote]
    · rw [ih]
      rfl
    · exact hquote
    · intro d others hc _
      exact hbackslash hc
    · intro hc _
      exact hbackslash hc
  | @escaped c written meant hspecial _ ih =>
    rw [List.cons_append, List.cons_append, unquote, if_pos hspecial, ih]
    rfl

/-- A string in quotes is read. -/
theorem takes_string : Takes string (fun text => Padded (Literal text)) fun _ => True := by
  refine takes_padded ?_
  intro text start stop h _
  obtain ⟨written, hwritten, hquoted⟩ := h
  have hsettled : start.settle = start := Cursor.settle_of_rest hwritten.rest (by decide)
  rw [List.cons_append, spelled_cons_iff] at hwritten
  obtain ⟨opened, hopened, hwritten⟩ := hwritten
  obtain ⟨closed, hwritten, hclosed⟩ := spelled_append_iff.mp hwritten
  have hrest : opened.rest = written ++ '"' :: stop.rest := by
    rw [hwritten.rest, hclosed.rest]
    rfl
  refine ⟨hsettled, result_andThen.mpr ⟨(), opened, ?_, ?_⟩⟩
  · exact (result_char_eq_some_iff start).mpr hopened
  refine result_andThen.mpr ⟨text, closed, ?_, ?_⟩
  · rw [hrest, unquote_of_quoted hquoted, hwritten.eq_skip]
    show some (String.ofList text.toList, _) = _
    rw [String.ofList_toList]
  refine result_andThen.mpr ⟨(), stop, ?_, rfl⟩
  exact (result_char_eq_some_iff closed).mpr hclosed

/-- Parentheses are not read where another character is next. -/
theorem result_parenthesized_eq_none {α : Type} (parser : Parser α) {cursor : Cursor}
    (h : cursor.ahead ≠ some '(') : (parenthesized parser cursor).result = none := by
  rw [Option.eq_none_iff_forall_ne_some]
  intro read hread
  obtain ⟨_, _, hopened, -⟩ := result_andThen.mp hread
  rw [result_mark_eq_none cursor h] at hopened
  cases hopened

/-- Behind an opening parenthesis the value and the closing one are read. -/
theorem result_parenthesized {α : Type} {parser : Parser α} {a : α} {start x y stop cursor : Cursor}
    (hopened : Mark '(' start x) (hclosed : Mark ')' y stop)
    (hvalue : (parser x.settle).result = some (a, y.settle))
    (hcursor : cursor.settle = start.settle) :
    (parenthesized parser cursor).result = some (a, stop.settle) := by
  refine result_andThen.mpr ⟨(), x.settle, ?_, ?_⟩
  · exact takes_mark (by decide) () start x cursor hopened (fun _ _ => trivial) hcursor
  refine result_andThen.mpr ⟨a, y.settle, hvalue, ?_⟩
  refine result_andThen.mpr ⟨(), stop.settle, ?_, rfl⟩
  exact takes_mark (by decide) () y stop y.settle hclosed (fun _ _ => trivial) y.settle_settle

section Nested

variable (nested : Parser Expression)

/-- `missing` is called with a string. -/
theorem result_call_missing {label : String} {cursor after : Cursor}
    (h : (parenthesized string cursor).result = some (label, after)) :
    (call nested "missing" cursor).result = some (.missing label, after) := by
  simp [call, result_map, h]

/-- `Optional` is called with an expression. -/
theorem result_call_optional {inner : Expression} {cursor after : Cursor}
    (h : (parenthesized nested cursor).result = some (inner, after)) :
    (call nested "Optional" cursor).result = some (.optional inner, after) := by
  simp [call, result_map, h]

/-- `Drop` is called with an expression. -/
theorem result_call_drop {inner : Expression} {cursor after : Cursor}
    (h : (parenthesized nested cursor).result = some (inner, after)) :
    (call nested "Drop" cursor).result = some (.drop inner, after) := by
  simp [call, result_map, h]

/-- `Tag` is called with a string and an expression. -/
theorem result_call_tag {field : String} {inner : Expression}
    {cursor a b c d e stop : Cursor} (hcursor : cursor.settle = a.settle) (hopened : Mark '(' a b)
    (hfield : Padded (Literal field) b c) (hcomma : Mark ',' c d)
    (hinner : (nested d.settle).result = some (inner, e.settle)) (hclosed : Mark ')' e stop) :
    (call nested "Tag" cursor).result = some (.tag field inner, stop.settle) := by
  have hlabel := takes_string field b c b.settle hfield (fun _ _ => trivial) b.settle_settle
  have hmark := takes_mark (by decide) () c d c.settle hcomma (fun _ _ => trivial) c.settle_settle
  have harguments : ((do
      let name ← string
      mark ','
      let inner ← nested
      return Expression.tag name inner : Parser Expression) b.settle).result =
        some (.tag field inner, e.settle) := by
    refine result_andThen.mpr ⟨field, c.settle, hlabel, ?_⟩
    refine result_andThen.mpr ⟨(), d.settle, hmark, ?_⟩
    exact result_andThen.mpr ⟨inner, e.settle, hinner, rfl⟩
  simpa [call] using result_parenthesized hopened hclosed harguments hcursor

/-- No call is read where no opening parenthesis is next. -/
theorem result_call_eq_none (modifier : String) {cursor : Cursor} (h : cursor.ahead ≠ some '(') :
    (call nested modifier cursor).result = none := by
  unfold call
  split
  · rw [result_map, result_parenthesized_eq_none _ h]
    rfl
  split
  · rw [result_map, result_parenthesized_eq_none _ h]
    rfl
  split
  · rw [result_map, result_parenthesized_eq_none _ h]
    rfl
  split
  · exact result_parenthesized_eq_none _ h
  · rfl

/-- A name is read with the call behind it, or alone if there is none. -/
theorem result_named {text : String} {start stop : Cursor} (hname : IsName text.toList)
    (hhere : Spelled text.toList start stop)
    (hnext : ∀ c ∈ stop.rest.head?, Text.isBlank c = true ∨ continuesName c = false)
    {called : Option (Expression × Cursor)} (hcalled : (call nested text stop).result = called) :
    (named nested start).result =
      some (called.getD (.name text ⟨start.position, stop.position⟩, stop)) := by
  have hread := (reads_identifier text start stop ⟨hname, hhere⟩ hnext).2
  rw [named, result_bind, result_position, Option.bind_some, result_bind, hread, Option.bind_some,
    result_bind, result_position, Option.bind_some, result_orElse, hcalled]
  cases called <;> rfl

/-- Neither a name nor a call is read at a character that starts no name. -/
theorem result_named_eq_none {cursor : Cursor} {c : Char} (h : cursor.rest.head? = some c)
    (hc : startsName c = false) : (named nested cursor).result = none := by
  rw [named, result_bind, result_position, Option.bind_some, result_bind,
    result_identifier_eq_none h hc, Option.bind_none]

/-- A name or call with white space around it is an atom. -/
theorem result_atom_of_named {tree : Expression} {cursor after : Cursor}
    (h : (named nested cursor.settle).result = some (tree, after)) :
    (atom nested cursor).result = some (tree, after.settle) := by
  refine (result_padded _ cursor).trans ?_
  rcases hreply : named nested cursor.settle with ⟨result, furthest⟩
  rw [hreply] at h
  cases h
  rfl

/-- Parentheses with white space around them are an atom. -/
theorem result_atom_of_parenthesized {tree : Expression} {cursor after : Cursor}
    (hnamed : (named nested cursor.settle).result = none)
    (h : (parenthesized nested cursor.settle).result = some (tree, after)) :
    (atom nested cursor).result = some (tree, after.settle) := by
  refine (result_padded _ cursor).trans ?_
  rcases hreply : named nested cursor.settle with ⟨result, furthest⟩
  rw [hreply] at hnamed
  cases hnamed
  rw [h]
  rfl

end Nested

end Parser

end MessageGrammar.Notation
