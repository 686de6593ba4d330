import MessageGrammar.Proofs.Offenders
import MessageGrammar.Proofs.ParserLanguages

/-!
# How far a rejected text is right

A text that cannot be read as an expression is rejected at the furthest place that any attempt came
to. Up to there the text has been begun well: more text can be put behind it so that the whole is an
expression. Parser by parser, what is taken and what was begun belongs to a language that is part of
what the rules of the notation derive.
-/

namespace MessageGrammar.Notation

open scoped Computability

/-- White space is allowed anywhere. -/
theorem mem_texts_blanks {gap : List Char} (h : ∀ c ∈ gap, Text.isBlank c = true) :
    gap ∈ texts fun _ : Unit => Blanks :=
  fun _ _ hspelled => ⟨(), gap, hspelled, h⟩

/-- A numeral that is not too great is allowed as a count. -/
theorem mem_texts_count {n : UInt64} {digits : List Char} (h : IsNumeral digits)
    (hvalue : Decimal.digitsValue digits = n.toNat) : digits ∈ texts Count :=
  fun _ _ hspelled => ⟨n, digits, hspelled, h, hvalue⟩

/-- A zero is a count. -/
theorem zero_mem_texts_count : ['0'] ∈ texts Count :=
  mem_texts_count (n := 0) (.inl rfl) rfl

/-- A quoted text is allowed as a string. -/
theorem mem_texts_literal {written : List Char} {text : String} (h : Quoted written text.toList) :
    '"' :: written ++ ['"'] ∈ texts Literal :=
  fun _ _ hspelled => ⟨text, written, hspelled, h⟩

/-- Two quotes are a string. -/
theorem quotes_mem_texts_literal : ['"', '"'] ∈ texts Literal :=
  @mem_texts_literal [] "" .nil

/-- A character is allowed as a mark. -/
theorem mem_texts_mark (c : Char) : [c] ∈ texts fun _ : Unit => Mark c :=
  fun _ _ hspelled => ⟨(), .of_bare hspelled⟩

/-- A name is an expression of every kind. -/
theorem mem_texts_name {text : List Char} (h : IsName text) : text ∈ texts (Derives .bare) :=
  fun _ _ hspelled => ⟨_, .name h hspelled⟩

namespace Parser

/-- White space is taken. -/
theorem tracks_blanks : Tracks blanks (texts fun _ : Unit => Blanks) := by
  constructor
  · intro start stop _ hresult
    obtain ⟨gap, hspelled, hblank⟩ := sound_blanks _ _ _ hresult
    exact ⟨gap, mem_texts_blanks hblank, hspelled⟩
  · exact fun _ => .inl rfl

/-- A character is taken. -/
theorem tracks_char (c : Char) : Tracks (char c) {[c]} := by
  constructor
  · intro start stop _ hresult
    exact stands_singleton_iff.mpr (sound_char c _ _ _ hresult)
  · intro start
    have hmissing : Begun {[c]} start (.single start.position (.char c)) :=
      begun_single (Set.mem_singleton [c]) start _
    unfold char
    split
    next => exact hmissing
    next =>
      split
      next => exact begun_none
      next => exact hmissing

/-- White space is taken around a value. -/
theorem tracks_padded {α : Type} {parser : Parser α} {rule : α → Stretch}
    (h : Tracks parser (texts rule)) (hrule : ∃ text, text ∈ texts rule) :
    Tracks (padded parser) (texts fun a => Padded (rule a)) := by
  have hnone : [] ∈ texts fun _ : Unit => Blanks := mem_texts_blanks (by simp)
  obtain ⟨text, htext⟩ := hrule
  have hafter : Tracks (do
      let a ← parser
      blanks
      return a) (texts rule * (texts fun _ : Unit => Blanks)) :=
    h.bind (fun a => tracks_blanks.map fun _ => a) ⟨[], hnone⟩
  refine (tracks_blanks.bind (fun _ => hafter) ⟨text ++ [], ?_⟩).mono (le_texts ?_)
  · exact Language.append_mem_mul htext hnone
  · intro start stop hstands
    obtain ⟨opened, hbefore, hstands⟩ := stands_mul_iff.mp hstands
    obtain ⟨closed, hhere, hafter⟩ := stands_mul_iff.mp hstands
    obtain ⟨_, hbefore⟩ := exists_of_stands hbefore
    obtain ⟨a, hhere⟩ := exists_of_stands hhere
    obtain ⟨_, hafter⟩ := exists_of_stands hafter
    exact ⟨a, opened, closed, hbefore, hhere, hafter⟩

/-- A mark is taken. -/
theorem tracks_mark (c : Char) : Tracks (mark c) (texts fun _ : Unit => Mark c) := by
  have hchar : Tracks (char c) (texts fun _ : Unit => Spelled [c]) :=
    (tracks_char c).mono (le_texts fun _ _ h => ⟨(), stands_singleton_iff.mp h⟩)
  exact tracks_padded hchar ⟨[c], fun _ _ h => ⟨(), h⟩⟩

/-- A count is taken. One that is too great was begun before its digits. -/
theorem tracks_count : Tracks count (texts Count) := by
  constructor
  · intro start stop n hresult
    obtain ⟨digits, hspelled, hnumeral, hvalue⟩ := sound_count _ _ _ hresult
    exact ⟨digits, mem_texts_count hnumeral hvalue, hspelled⟩
  · intro start
    have hdigits : Begun (texts Count) start (digits start).furthest := by
      unfold digits
      split
      next => exact begun_single zero_mem_texts_count start _
      next =>
        split
        next => exact begun_none
        next =>
          split
          next => exact begun_none
          next => exact begun_single zero_mem_texts_count start _
    rcases hreply : digits start with ⟨_ | ⟨text, stop⟩, furthest⟩
    · rw [hreply] at hdigits
      show Begun _ start (andThen position _ start).furthest
      simp only [andThen, position, bind, hreply]
      exact begun_none.max hdigits
    · have htaken := sound_digits text start stop (by rw [hreply])
      have hforward : Forward start stop := htaken.1.forward
      have hexcess (expected : List Expectation) : Begun (texts Count) start
          ⟨stop.position, expected, some ⟨start.position, stop.position⟩⟩ :=
        .inr ⟨start, stop, [], ['0'], spelled_nil_iff.mpr rfl, hforward, rfl, zero_mem_texts_count⟩
      rw [hreply] at hdigits
      show Begun _ start (andThen position _ start).furthest
      simp only [andThen, position, bind, hreply]
      refine begun_none.max (hdigits.max (begun_none.max ?_))
      split
      next => exact begun_none
      next => exact hexcess []

/-- A count is taken with the white space around it. -/
theorem tracks_padded_count : Tracks (padded count) (texts fun n => Padded (Count n)) :=
  tracks_padded tracks_count ⟨_, zero_mem_texts_count⟩

/-- A colon is taken with the count behind it. -/
theorem tracks_upper : Tracks (do mark ':'; optional (padded count)) (texts Upper) := by
  have htracks := (tracks_mark ':').bind (fun _ => tracks_padded_count.optional) exists_mem_add_one
  refine htracks.mono (le_texts fun start stop h => ?_)
  obtain ⟨place, hmark, h⟩ := stands_mul_iff.mp h
  obtain ⟨_, hmark⟩ := exists_of_stands hmark
  rcases stands_add_iff.mp h with hcount | hnone
  · obtain ⟨n, hcount⟩ := exists_of_stands hcount
    exact ⟨some n, place, hmark, .present hcount⟩
  · rw [stands_one_iff.mp hnone]
    exact ⟨none, place, hmark, .absent place⟩

/-- What need not be there is there or leaves no text. -/
theorem maybe_of_stands {α : Type} {rule : α → Stretch} {start stop : Cursor}
    (h : Stands (texts rule + 1) start stop) : ∃ a, Maybe rule a start stop := by
  rcases stands_add_iff.mp h with hhere | hnone
  · obtain ⟨a, hhere⟩ := exists_of_stands hhere
    exact ⟨some a, .present hhere⟩
  · rw [stands_one_iff.mp hnone]
    exact ⟨none, .absent start⟩

/-- Bounds are taken. -/
theorem tracks_bounds : Tracks bounds (texts fun range => Padded (Range range)) := by
  have hblanks : ∃ text, text ∈ texts fun _ : Unit => Blanks := ⟨[], mem_texts_blanks (by simp)⟩
  have hclosed (low : Option UInt64) (high : Option (Option UInt64)) (start : Nat) : Tracks (do
      char ']'
      let stop ← position
      blanks
      return Bounds.mk low high ⟨start, stop⟩) ({[']']} * texts fun _ : Unit => Blanks) :=
    (tracks_char ']').bind (fun _ => tracks_position fun stop => tracks_blanks.map fun _ =>
      Bounds.mk low high ⟨start, stop⟩) hblanks
  have hrest := exists_mem_mul (l := {[']']}) ⟨_, Set.mem_singleton _⟩ hblanks
  have hhigh := exists_mem_mul (l := texts Upper + 1) exists_mem_add_one hrest
  have hlow := exists_mem_mul (l := texts (fun n => Padded (Count n)) + 1) exists_mem_add_one hhigh
  have hopened := exists_mem_mul (l := {['[']}) ⟨_, Set.mem_singleton _⟩ hlow
  have htracks := tracks_blanks.bind (fun _ => tracks_position fun start =>
    (tracks_char '[').bind (fun _ => tracks_padded_count.optional.bind (fun low =>
      tracks_upper.optional.bind (fun high => hclosed low high start) hrest) hhigh) hlow) hopened
  refine Tracks.mono htracks (le_texts ?_)
  intro start stop h
  obtain ⟨opened, hbefore, h⟩ := stands_mul_iff.mp h
  obtain ⟨a, hopened, h⟩ := stands_mul_iff.mp h
  obtain ⟨b, hlow, h⟩ := stands_mul_iff.mp h
  obtain ⟨c, hhigh, h⟩ := stands_mul_iff.mp h
  obtain ⟨closed, hclosed, hafter⟩ := stands_mul_iff.mp h
  obtain ⟨_, hbefore⟩ := exists_of_stands hbefore
  obtain ⟨low, hlow⟩ := maybe_of_stands hlow
  obtain ⟨high, hhigh⟩ := maybe_of_stands hhigh
  obtain ⟨_, hafter⟩ := exists_of_stands hafter
  refine ⟨⟨low, high, _⟩, opened, closed, hbefore, ⟨a, b, c, ?_, hlow, hhigh, ?_, rfl⟩, hafter⟩
  · exact stands_singleton_iff.mp hopened
  · exact stands_singleton_iff.mp hclosed

/-- A string is taken. What stands between the quotes is passed over without an attempt. -/
theorem tracks_string : Tracks string (texts fun text => Padded (Literal text)) := by
  unfold string
  have hquotes : ∃ rest, rest ∈ {rest | '"' :: rest ∈ texts Literal} :=
    ⟨['"'], quotes_mem_texts_literal⟩
  refine tracks_padded (Tracks.mono ((tracks_char '"').bind (fun _ => ?_) hquotes) ?_)
    ⟨_, quotes_mem_texts_literal⟩
  · refine tracks_bind (fun start => ?_) fun start text middle hresult => ?_
    · cases unquote start.rest <;> exact begun_none
    · split at hresult
      next meant n hunquote =>
        cases hresult
        obtain ⟨written, more, hrest, hlength, hquoted⟩ := quoted_of_unquote hunquote
        have hwritten : Spelled written start (start.skip n) := by
          rw [← hlength]
          exact spelled_skip ⟨'"' :: more, hrest.symm⟩
        refine ⟨written, {['"']}, hwritten, (tracks_char '"').map fun _ => _, ?_⟩
        rintro _ rfl
        rw [← String.toList_ofList (l := meant)] at hquoted
        exact mem_texts_literal hquoted
      next => cases hresult
  · rintro _ ⟨_, rfl, rest, hrest, rfl⟩
    exact hrest

/-- A value in parentheses is taken with them. -/
theorem tracks_parenthesized {α : Type} {parser : Parser α} {l : Language Char}
    (h : Tracks parser l) (hl : ∃ text, text ∈ l) :
    Tracks (parenthesized parser)
      ((texts fun _ : Unit => Mark '(') * (l * texts fun _ : Unit => Mark ')')) := by
  have hclosing : ∃ text, text ∈ texts fun _ : Unit => Mark ')' := ⟨_, mem_texts_mark ')'⟩
  have hrest := h.bind (fun a => (tracks_mark ')').map fun _ => a) hclosing
  exact (tracks_mark '(').bind (fun _ => hrest) (exists_mem_mul hl hclosing)

/-- What a modifier is called with makes a call of it. -/
theorem le_calls {modifier : String} {l : Language Char}
    (h : ∀ start a b c stop, Spelled modifier.toList start a → Mark '(' a b → Stands l b c →
      Mark ')' c stop → ∃ tree, Derives .bare tree start stop) :
    (texts fun _ : Unit => Mark '(') * (l * texts fun _ : Unit => Mark ')') ≤
      {rest | modifier.toList ++ rest ∈ texts (Derives .bare)} := by
  intro rest hrest start stop hspelled
  obtain ⟨a, hmodifier, hspelled⟩ := spelled_append_iff.mp hspelled
  obtain ⟨b, hopened, hstands⟩ := stands_mul_iff.mp ⟨rest, hrest, hspelled⟩
  obtain ⟨c, hhere, hclosed⟩ := stands_mul_iff.mp hstands
  obtain ⟨_, hopened⟩ := exists_of_stands hopened
  obtain ⟨_, hclosed⟩ := exists_of_stands hclosed
  exact h start a b c stop hmodifier hopened hhere hclosed

/-- The texts of expressions inside others. -/
abbrev expressionTexts : Language Char :=
  texts IsExpression

/-- Elements of a chain are chains. -/
theorem texts_operand_le (operator : Operator) :
    texts (Derives operator.operand) ≤ texts (Derives (.chain operator)) := by
  refine le_texts fun start stop h => ?_
  obtain ⟨tree, htree⟩ := exists_of_stands h
  exact ⟨tree, .single operator htree⟩

/-- Atoms without bounds stand between all operators. -/
theorem texts_bare_le (operator : Operator) :
    texts (Derives .bare) ≤ texts (Derives operator.operand) := by
  have hitem : texts (Derives .bare) ≤ texts (Derives .item) := by
    refine le_texts fun start stop h => ?_
    obtain ⟨tree, htree⟩ := exists_of_stands h
    exact ⟨tree, .plain (.atom (.refl start) htree (.refl stop))⟩
  cases operator with
  | priority => exact hitem
  | sequence => exact hitem.trans (texts_operand_le .priority)
  | alternation =>
    exact (hitem.trans (texts_operand_le .priority)).trans (texts_operand_le .sequence)

/-- There is a name, for example. -/
theorem exists_mem_operand (operator : Operator) :
    ∃ text, text ∈ texts (Derives operator.operand) :=
  ⟨['W'], texts_bare_le operator (mem_texts_name (by decide))⟩

/-- There are expressions. -/
theorem exists_mem_expressionTexts : ∃ text, text ∈ expressionTexts := by
  obtain ⟨text, htext⟩ := exists_mem_operand .alternation
  exact ⟨text, texts_operand_le .alternation htext⟩

section Nested

variable {nested : Parser Expression} (hnested : Tracks nested expressionTexts)

include hnested

/-- What is taken behind the name of a modifier makes a call of it. -/
theorem tracks_call (modifier : String) :
    Tracks (call nested modifier)
      {rest | modifier.toList ++ rest ∈ texts (Derives .bare)} := by
  have hstring : ∃ text, text ∈ texts fun text => Padded (Literal text) :=
    ⟨_, mem_texts_padded quotes_mem_texts_literal⟩
  have hinner := tracks_parenthesized hnested exists_mem_expressionTexts
  unfold call
  split
  next hname =>
    refine ((tracks_parenthesized tracks_string hstring).map _).mono (le_calls ?_)
    rintro start a b c stop hmodifier hopened hlabel hclosed
    obtain ⟨label, hlabel⟩ := exists_of_stands hlabel
    rw [hname] at hmodifier
    exact ⟨_, .missing hmodifier hopened hlabel hclosed⟩
  split
  next hname =>
    refine (hinner.map _).mono (le_calls ?_)
    rintro start a b c stop hmodifier hopened hinner hclosed
    obtain ⟨inner, hinner⟩ := exists_of_stands hinner
    rw [hname] at hmodifier
    exact ⟨_, .optional hmodifier hopened hinner hclosed⟩
  split
  next hname =>
    refine (hinner.map _).mono (le_calls ?_)
    rintro start a b c stop hmodifier hopened hinner hclosed
    obtain ⟨inner, hinner⟩ := exists_of_stands hinner
    rw [hname] at hmodifier
    exact ⟨_, .drop hmodifier hopened hinner hclosed⟩
  split
  next hname =>
    have hcomma := exists_mem_mul ⟨_, mem_texts_mark ','⟩ exists_mem_expressionTexts
    have harguments := tracks_string.bind (fun field => (tracks_mark ',').bind (fun _ =>
      hnested.map (Expression.tag field)) exists_mem_expressionTexts) hcomma
    refine (tracks_parenthesized harguments (exists_mem_mul hstring hcomma)).mono (le_calls ?_)
    rintro start a b e stop hmodifier hopened harguments hclosed
    obtain ⟨c, hfield, hrest⟩ := stands_mul_iff.mp harguments
    obtain ⟨d, hcomma, hinner⟩ := stands_mul_iff.mp hrest
    obtain ⟨field, hfield⟩ := exists_of_stands hfield
    obtain ⟨_, hcomma⟩ := exists_of_stands hcomma
    obtain ⟨inner, hinner⟩ := exists_of_stands hinner
    rw [hname] at hmodifier
    exact ⟨_, .tag hmodifier hopened hfield hcomma hinner hclosed⟩
  next => exact ⟨nofun, fun _ => begun_none⟩

/-- A name is taken, or a call. -/
theorem tracks_named : Tracks (named nested) (texts (Derives .bare)) := by
  refine tracks_position fun start => tracks_bind (fun cursor => ?_) ?_
  · unfold identifier
    split
    next => exact begun_none
    next => split <;> exact begun_none
  · intro cursor text middle hresult
    obtain ⟨hname, hspelled⟩ := sound_identifier _ _ _ hresult
    refine ⟨text.toList, _, hspelled, tracks_position fun stop => ?_, fun _ hmore => hmore⟩
    refine (tracks_call hnested text).orElse ((tracks_pure _).mono ?_)
    rintro _ rfl
    show text.toList ++ [] ∈ texts (Derives .bare)
    rw [List.append_nil]
    exact mem_texts_name hname

/-- An expression in parentheses is taken. -/
theorem tracks_group : Tracks (parenthesized nested) (texts (Derives .bare)) := by
  refine (tracks_parenthesized hnested exists_mem_expressionTexts).mono (le_texts ?_)
  intro start stop h
  obtain ⟨a, hopened, h⟩ := stands_mul_iff.mp h
  obtain ⟨b, hinner, hclosed⟩ := stands_mul_iff.mp h
  obtain ⟨_, hopened⟩ := exists_of_stands hopened
  obtain ⟨tree, hinner⟩ := exists_of_stands hinner
  obtain ⟨_, hclosed⟩ := exists_of_stands hclosed
  exact ⟨tree, .group hopened hinner hclosed⟩

/-- An atom is taken. -/
theorem tracks_atom : Tracks (atom nested) (texts (Derives .atom)) := by
  unfold atom
  have hbare : ∃ text, text ∈ texts (Derives .bare) := ⟨['W'], mem_texts_name (by decide)⟩
  refine (tracks_padded ⟨fun hresult => ?_, fun start => ?_⟩ hbare).mono (le_texts ?_)
  · split at hresult
    next => exact (tracks_group hnested).taken hresult
    next => exact (tracks_named hnested).taken hresult
  · have hnamed := (tracks_named hnested).begun start
    split
    next furthest hreply =>
      rw [hreply] at hnamed
      exact hnamed.max ((tracks_group hnested).begun start)
    next => exact hnamed
  · intro start stop h
    obtain ⟨tree, opened, closed, hbefore, hhere, hafter⟩ := exists_of_stands h
    exact ⟨tree, .atom hbefore hhere hafter⟩

/-- An item is taken. -/
theorem tracks_item : Tracks (item nested) (texts (Derives .item)) := by
  unfold item
  have hrange := exists_mem_add_one (l := texts fun range => Padded (Range range))
  refine ((tracks_atom hnested).bind (fun inner => ?_) hrange).mono (le_texts ?_)
  · rw [← mul_one (texts _ + 1)]
    refine tracks_bounds.optional.bind (fun range => ?_) ⟨[], Language.nil_mem_one⟩
    cases range <;> exact tracks_pure _
  · intro start stop h
    obtain ⟨a, hcontent, hrange⟩ := stands_mul_iff.mp h
    obtain ⟨inner, hcontent⟩ := exists_of_stands hcontent
    obtain ⟨range, hrange⟩ := maybe_of_stands hrange
    cases hrange with
    | absent => exact ⟨inner, .plain hcontent⟩
    | present hrange => exact ⟨_, .bounded hcontent hrange⟩

end Nested

/-- Behind the first element of a chain there are elements behind the operator. -/
theorem exists_tail_of_stands {operator : Operator} {start stop : Cursor}
    (h : Stands ((texts fun _ : Unit => Mark operator.symbol) *
      texts (Derives operator.operand))∗ start stop) :
    ∃ tail, DerivesTail operator tail start stop := by
  obtain ⟨_, ⟨elements, rfl, helements⟩, hspelled⟩ := h
  induction elements generalizing start with
  | nil =>
    rw [spelled_nil_iff.mp hspelled]
    exact ⟨[], .nil start⟩
  | cons element others ih =>
    obtain ⟨helement, hothers⟩ := List.forall_mem_cons.mp helements
    obtain ⟨b, hhere, hbehind⟩ := spelled_append_iff.mp hspelled
    obtain ⟨a, hsymbol, hnext⟩ := stands_mul_iff.mp ⟨element, helement, hhere⟩
    obtain ⟨_, hsymbol⟩ := exists_of_stands hsymbol
    obtain ⟨head, hnext⟩ := exists_of_stands hnext
    obtain ⟨tail, htail⟩ := ih hothers hbehind
    exact ⟨head :: tail, .cons hsymbol hnext htail⟩

/-- A chain is taken. -/
theorem tracks_chain (operator : Operator) {element : Parser Expression}
    (helement : Tracks element (texts (Derives operator.operand))) :
    Tracks (chain operator.symbol operator.build element) (texts (Derives (.chain operator))) := by
  have hnext := (tracks_mark operator.symbol).bind (fun _ => helement) (exists_mem_operand operator)
  have htracks := helement.bind (fun head => hnext.many.map fun tail => operator.join head tail)
    ⟨[], Language.nil_mem_kstar _⟩
  refine Tracks.mono htracks (le_texts fun start stop h => ?_)
  obtain ⟨a, hfirst, hothers⟩ := stands_mul_iff.mp h
  obtain ⟨head, hfirst⟩ := exists_of_stands hfirst
  obtain ⟨tail, hothers⟩ := exists_tail_of_stands hothers
  exact ⟨_, .chain hfirst hothers⟩

/-- An alternation is taken if that holds of the expressions inside it. -/
theorem tracks_alternation {nested : Parser Expression} (hnested : Tracks nested expressionTexts) :
    Tracks (alternation nested) expressionTexts := by
  have hpriority := tracks_chain .priority (tracks_item hnested)
  have hsequence := tracks_chain .sequence hpriority
  exact tracks_chain .alternation hsequence

/-- An expression is taken, whatever number of characters it is kept to. -/
theorem tracks_expressionWithin (n : Nat) :
    Tracks (fun inner => if inner.rest.length < n then expression inner else ⟨none, .none⟩)
      expressionTexts := by
  induction n using Nat.strongRecOn with
  | ind n ih =>
    constructor
    · intro start stop tree hresult
      split at hresult
      next hless =>
        rw [expression] at hresult
        exact (tracks_alternation (ih _ hless)).taken hresult
      next => cases hresult
    · intro start
      split
      next hless =>
        rw [expression]
        exact (tracks_alternation (ih _ hless)).begun start
      next => exact begun_none

/-- An expression is taken. -/
theorem tracks_expression : Tracks expression expressionTexts := by
  have hless (start : Cursor) : start.rest.length < start.rest.length + 1 := Nat.lt_succ_self _
  constructor
  · intro start stop tree hresult
    have htracks := tracks_expressionWithin (start.rest.length + 1)
    exact htracks.taken ((congrArg Reply.result (if_pos (hless start))).trans hresult)
  · intro start
    have hbegun := (tracks_expressionWithin (start.rest.length + 1)).begun start
    rwa [if_pos (hless start)] at hbegun

/-- A whole text was begun wherever it is rejected. -/
theorem tracks_whole : Tracks whole (texts fun tree => Padded (IsExpression tree)) := by
  have hend : Tracks endOfText 1 := by
    constructor
    · intro start stop _ hresult
      unfold endOfText at hresult
      split at hresult
      next =>
        cases hresult
        exact stands_one_iff.mpr rfl
      next => cases hresult
    · intro start
      unfold endOfText
      split
      next => exact begun_none
      next => exact begun_single Language.nil_mem_one start _
  have htracks := (tracks_padded tracks_expression exists_mem_expressionTexts).bind
    (fun tree => hend.map fun _ => tree) ⟨[], Language.nil_mem_one⟩
  rwa [mul_one] at htracks

end Parser

/-- A text that was begun from the start of a source holds the characters of the source up to where
the failure is reported. -/
theorem Begun.exists_take {language : Language Char} {source : List Char} {failure : Failure}
    (h : Begun language ⟨0, source⟩ failure) (hlanguage : ∃ text, text ∈ language) :
    failure.place.start ≤ failure.place.stop ∧ failure.place.stop ≤ source.length ∧
      ∃ more, source.take failure.place.start ++ more ∈ language := by
  rcases h with hplace | ⟨place, stop, text, more, hspelled, ⟨between, hbetween⟩, hplace, hmem⟩
  · rw [hplace]
    exact ⟨Nat.le_refl 0, Nat.zero_le _, hlanguage⟩
  · rw [hplace]
    have hsource : source = text ++ place.rest := hspelled.rest
    have hposition : place.position = text.length := hspelled.position.trans (Nat.zero_add _)
    have hlength := hbetween.length_rest
    have hstop := hbetween.position
    refine ⟨?_, ?_, more, ?_⟩
    · exact hstop ▸ Nat.le_add_right _ _
    · show stop.position ≤ source.length
      rw [hsource, List.length_append]
      omega
    · show source.take place.position ++ more ∈ language
      rw [hsource, hposition, List.take_left]
      exact hmem

/-- A failure inside a text is reported where it is, and not behind the text. -/
theorem span_ofFailure {source : List Char} {failure : Failure}
    (hle : failure.place.start ≤ failure.place.stop) (hstop : failure.place.stop ≤ source.length) :
    (NotationError.ofFailure source failure).span.start = failure.place.start ∧
      (NotationError.ofFailure source failure).span.start ≤
        (NotationError.ofFailure source failure).span.stop ∧
      (NotationError.ofFailure source failure).span.stop ≤ source.length := by
  unfold NotationError.ofFailure
  split
  next digits hexcess =>
    have hplace : failure.place = digits := by rw [Failure.place, hexcess]; rfl
    rw [hplace] at hle hstop ⊢
    exact ⟨rfl, hle, hstop⟩
  next hexcess =>
    have hplace : failure.place = ⟨failure.position, failure.position⟩ := by
      rw [Failure.place, hexcess]
      rfl
    rw [hplace] at hstop ⊢
    replace hstop : failure.position ≤ source.length := hstop
    split
    next hdrop =>
      have hlength : source.length ≤ failure.position := List.drop_eq_nil_iff.mp hdrop
      exact ⟨Nat.le_antisymm hlength hstop, Nat.le_refl _, Nat.le_refl _⟩
    next c more hdrop =>
      have hlength := congrArg List.length hdrop
      rw [List.length_drop, List.length_cons] at hlength
      refine ⟨rfl, Nat.le_succ _, ?_⟩
      show failure.position + 1 ≤ source.length
      omega

namespace Expression

/-- An expression with white space around it is read. -/
theorem exists_ofText_of_mem_texts {text : List Char}
    (h : text ∈ texts fun tree => Padded (IsExpression tree)) : ∃ tree, ofText text = .ok tree := by
  have hwhole : Spelled text ⟨0, text⟩ ⟨text.length, []⟩ :=
    ⟨(List.append_nil text).symm, (Nat.zero_add text.length).symm⟩
  obtain ⟨tree, opened, closed, hbefore, hhere, hafter⟩ := h _ _ hwhole
  have hend : closed.settle.rest = [] := by
    rw [Cursor.settle_eq_of_blanks hafter]
    rfl
  have hnext : ∀ c ∈ closed.ahead, c ∈ (Layer.chain .alternation).followers := by
    intro c hc
    rw [Cursor.ahead, hend] at hc
    cases hc
  have hread := hhere.recognised hnext (Cursor.settle ⟨0, text⟩)
    ((Cursor.settle_settle _).trans (Cursor.settle_eq_of_blanks hbefore))
  refine ⟨tree, ofText_of_denotes (denotes_of_result hread ?_)⟩
  rw [Cursor.settle_settle, hend]

/-- Resolution never says that a text cannot be read. -/
theorem resolve_ne_malformed (tree : Expression) (span : Span) (found : Option Char)
    (expected : List Expectation) : tree.resolve ≠ .error (.malformed span found expected) := by
  intro h
  have hmem := List.mem_of_mem_head? ((reports_resolve tree _).mp h)
  obtain ⟨node, -, hoffends⟩ := (mem_errors_iff tree).mp hmem
  cases hoffends

/-- A text that cannot be read is rejected at a place inside it, and the characters before this
place begin a text that can be read. -/
theorem exists_ofText_of_malformed {source : String} {span : Span} {found : Option Char}
    {expected : List Expectation}
    (h : Grammar.compile source = .error (.malformed span found expected)) :
    span.start ≤ span.stop ∧ span.stop ≤ source.length ∧
      ∃ whole : String, source.toList.take span.start <+: whole.toList ∧
        ∃ tree, ofText whole.toList = .ok tree := by
  have hbegun := Parser.tracks_whole.begun ⟨0, source.toList⟩
  have hexists : ∃ text, text ∈ texts fun tree => Padded (IsExpression tree) := by
    obtain ⟨text, htext⟩ := Parser.exists_mem_expressionTexts
    exact ⟨text, mem_texts_padded htext⟩
  obtain ⟨hle, hstop, more, hmem⟩ := hbegun.exists_take hexists
  rw [Grammar.compile, ofText] at h
  rcases hreply : Parser.whole ⟨0, source.toList⟩ with ⟨_ | ⟨tree, stop⟩, furthest⟩
  · rw [hreply] at h hle hstop hmem
    obtain ⟨hstart, hspan, hlength⟩ := span_ofFailure hle hstop
    rw [Except.error.inj h] at hstart hspan hlength
    refine ⟨hspan, hlength, String.ofList (source.toList.take furthest.place.start ++ more), ?_, ?_⟩
    · rw [String.toList_ofList, ← hstart]
      exact List.prefix_append _ _
    · rw [String.toList_ofList]
      exact exists_ofText_of_mem_texts hmem
  · rw [hreply] at h
    exact absurd h (resolve_ne_malformed tree span found expected)

/-- A count of `2 ^ 64` is rejected as a whole, and up to it the text can still be completed. -/
theorem great_count_rejected_where_it_begins :
    Grammar.compile "(Word[2: 18446744073709551616]" = .error (.malformed ⟨9, 29⟩ none []) ∧
      ∃ whole : String, "(Word[2: ".toList <+: whole.toList ∧
        ∃ tree, ofText whole.toList = .ok tree := by
  have hrejected : Grammar.compile "(Word[2: 18446744073709551616]" =
      .error (.malformed ⟨9, 29⟩ none []) := by decide +kernel
  have htaken : "(Word[2: 18446744073709551616]".toList.take 9 = "(Word[2: ".toList := by decide
  have hbegun := (exists_ofText_of_malformed hrejected).2.2
  rw [htaken] at hbegun
  exact ⟨hrejected, hbegun⟩

end Expression

end MessageGrammar.Notation
