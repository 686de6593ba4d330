import MessageGrammar.Proofs.NotationRules

/-!
# Places and replies

What a parser replies, without the failures it met: one equation per combinator, and for white
space the place behind it, where a cursor settles. Two places that settle in the same place differ
only by white space, and no rule of the notation tells them apart.
-/

namespace MessageGrammar.Notation

section Places

variable {start middle stop : Cursor}

/-- No characters stand between a place and itself only. -/
theorem spelled_nil_iff : Spelled [] start stop ↔ stop = start := by
  constructor
  · intro h
    have hrest : start.rest = stop.rest := h.rest
    have hposition : stop.position = start.position := h.position
    cases start
    cases stop
    simp_all
  · intro h
    rw [h]
    exact ⟨rfl, rfl⟩

/-- A text stands between two places piece by piece. -/
theorem spelled_append_iff {text more : List Char} :
    Spelled (text ++ more) start stop ↔
      ∃ middle, Spelled text start middle ∧ Spelled more middle stop := by
  constructor
  · intro h
    refine ⟨⟨start.position + text.length, more ++ stop.rest⟩, ⟨?_, rfl⟩, ⟨rfl, ?_⟩⟩
    · rw [h.rest, List.append_assoc]
    · rw [h.position, List.length_append, Nat.add_assoc]
  · intro h
    obtain ⟨middle, hfirst, hsecond⟩ := h
    constructor
    · rw [hfirst.rest, hsecond.rest, List.append_assoc]
    · rw [hsecond.position, hfirst.position, List.length_append, Nat.add_assoc]

/-- A text that begins with a character stands there character by character. -/
theorem spelled_cons_iff {c : Char} {text : List Char} :
    Spelled (c :: text) start stop ↔
      ∃ middle, Spelled [c] start middle ∧ Spelled text middle stop := by
  show Spelled ([c] ++ text) start stop ↔ _
  exact spelled_append_iff

/-- The place behind a text is known from the text. -/
theorem Spelled.eq_skip {text : List Char} (h : Spelled text start stop) :
    stop = start.skip text.length := by
  have hrest : start.rest.drop text.length = stop.rest := by
    rw [h.rest, List.drop_left]
  rw [Cursor.skip, hrest, ← h.position]

/-- The next characters of a text stand before the place behind them. -/
theorem spelled_skip {text : List Char} (h : text <+: start.rest) :
    Spelled text start (start.skip text.length) := by
  obtain ⟨more, hmore⟩ := h
  constructor
  · rw [Cursor.skip, ← hmore, List.drop_left]
  · rfl

/-- Text is left out going from place to place. -/
theorem Spelled.length_rest {text : List Char} (h : Spelled text start stop) :
    start.rest.length = text.length + stop.rest.length := by
  rw [h.rest, List.length_append]

/-- White space may be absent. -/
theorem Blanks.refl (place : Cursor) : Blanks place place :=
  ⟨[], spelled_nil_iff.mpr rfl, fun _ hc => absurd hc List.not_mem_nil⟩

/-- What stands by itself stands with no white space around it. -/
theorem Padded.of_bare {inner : Stretch} (h : inner start stop) : Padded inner start stop :=
  ⟨start, stop, .refl start, h, .refl stop⟩

end Places

namespace Cursor

/-- The place behind the white space at a place. -/
def settle (cursor : Cursor) : Cursor :=
  ⟨cursor.position + (cursor.rest.takeWhile Text.isBlank).length,
    cursor.rest.dropWhile Text.isBlank⟩

/-- The first character behind the white space at a place. -/
def ahead (cursor : Cursor) : Option Char :=
  cursor.settle.rest.head?

variable {start stop place : Cursor}

/-- Only white space is passed over. -/
theorem blanks_settle (place : Cursor) : Blanks place place.settle := by
  refine ⟨place.rest.takeWhile Text.isBlank, ⟨?_, rfl⟩, ?_⟩
  · exact List.takeWhile_append_dropWhile.symm
  · intro c hc
    exact List.all_eq_true.mp List.all_takeWhile c hc

/-- A cursor before another character than white space stays where it is. -/
theorem settle_of_rest {c : Char} {text : List Char} (h : place.rest = c :: text)
    (hc : Text.isBlank c = false) : place.settle = place := by
  obtain ⟨position, rest⟩ := place
  subst h
  simp [settle, hc]

/-- White space does not change where a cursor settles. -/
theorem settle_eq_of_blanks (h : Blanks start stop) : start.settle = stop.settle := by
  obtain ⟨gap, hgap, hblank⟩ := h
  obtain ⟨position, rest⟩ := start
  have hrest : rest = gap ++ stop.rest := hgap.rest
  have hposition : stop.position = position + gap.length := hgap.position
  simp [settle, hrest, hposition, List.takeWhile_append_of_pos hblank,
    List.dropWhile_append_of_pos hblank, Nat.add_assoc]

/-- A settled cursor stays where it is. -/
@[simp] theorem settle_settle (place : Cursor) : place.settle.settle = place.settle :=
  (settle_eq_of_blanks (blanks_settle place)).symm

/-- A cursor that settles sees the same character as before. -/
@[simp] theorem ahead_settle (place : Cursor) : place.settle.ahead = place.ahead := by
  rw [ahead, settle_settle, ahead]

/-- White space does not change which character comes next. -/
theorem ahead_eq_of_blanks (h : Blanks start stop) : start.ahead = stop.ahead := by
  rw [ahead, settle_eq_of_blanks h, ahead]

/-- A character that is no white space is the next one. -/
theorem ahead_of_rest {c : Char} {text : List Char} (h : place.rest = c :: text)
    (hc : Text.isBlank c = false) : place.ahead = some c := by
  rw [ahead, settle_of_rest h hc, h]
  rfl

/-- The next character is known even if it is white space. -/
theorem head?_rest_cases {c : Char} (h : place.rest.head? = some c) :
    Text.isBlank c = true ∨ place.ahead = some c := by
  cases hc : Text.isBlank c with
  | true => exact .inl rfl
  | false =>
    obtain ⟨text, htext⟩ := List.head?_eq_some_iff.mp h
    exact .inr (ahead_of_rest htext hc)

end Cursor

/-- A mark is the next character. -/
theorem Mark.ahead_eq {c : Char} {start stop : Cursor} (h : Mark c start stop)
    (hc : Text.isBlank c = false) : start.ahead = some c := by
  obtain ⟨opened, closed, hbefore, hhere, -⟩ := h
  rw [Cursor.ahead_eq_of_blanks hbefore]
  exact Cursor.ahead_of_rest hhere.rest hc

namespace Parser

variable {α β : Type} (parser : Parser α) (cursor : Cursor)

/-- The second parser goes on where the first one stops. -/
theorem result_bind (next : α → Parser β) :
    ((parser >>= next) cursor).result =
      (parser cursor).result.bind fun read => (next read.1 read.2).result := by
  show (andThen parser next cursor).result = _
  unfold andThen
  rcases parser cursor with ⟨result, furthest⟩
  cases result with
  | none => rfl
  | some read => rfl

/-- The value read may be changed. -/
theorem result_map (f : α → β) :
    ((f <$> parser) cursor).result = (parser cursor).result.map fun read => (f read.1, read.2) := by
  show ((parser >>= fun a => pure (f a)) cursor).result = _
  rw [result_bind]
  cases (parser cursor).result <;> rfl

/-- The place is told without going on. -/
theorem result_position : (position cursor).result = some (cursor.position, cursor) :=
  rfl

/-- White space is passed over as far as it goes. -/
theorem result_blanks : (blanks cursor).result = some ((), cursor.settle) := by
  have hdrop : cursor.rest.drop (cursor.rest.takeWhile Text.isBlank).length =
      cursor.rest.dropWhile Text.isBlank := by
    calc cursor.rest.drop (cursor.rest.takeWhile Text.isBlank).length
        = (cursor.rest.takeWhile Text.isBlank ++ cursor.rest.dropWhile Text.isBlank).drop
            (cursor.rest.takeWhile Text.isBlank).length := by
          rw [List.takeWhile_append_dropWhile]
      _ = cursor.rest.dropWhile Text.isBlank := List.drop_left
  rw [blanks, result_bind]
  show some ((), cursor.skip (cursor.rest.takeWhile Text.isBlank).length) = _
  rw [Cursor.skip, hdrop, Cursor.settle]

/-- A value is read where the cursor settles, and the cursor settles behind it. -/
theorem result_padded :
    (padded parser cursor).result =
      (parser cursor.settle).result.map fun read => (read.1, read.2.settle) := by
  simp only [padded, result_bind, result_blanks, Option.bind_some]
  cases (parser cursor.settle).result <;> rfl

/-- A value that need not be there is always read. -/
theorem result_optional :
    (optional parser cursor).result =
      some (match (parser cursor).result with
        | none => (none, cursor)
        | some read => (some read.1, read.2)) := by
  unfold optional
  rcases parser cursor with ⟨result, furthest⟩
  cases result <;> rfl

/-- The second parser is asked where the first one fails. -/
theorem result_orElse (other : Parser α) :
    (orElse parser other cursor).result =
      match (parser cursor).result with
      | none => (other cursor).result
      | some read => some read := by
  unfold orElse
  rcases parser cursor with ⟨result, furthest⟩
  cases result <;> rfl

/-- Values that fail at once are none. -/
theorem result_many_of_none (h : (parser cursor).result = none) :
    (many parser cursor).result = some ([], cursor) := by
  rw [many]
  rcases hreply : parser cursor with ⟨result, furthest⟩
  rw [hreply] at h
  cases h
  rfl

/-- A value that takes text is followed by the values behind it. -/
theorem result_many_of_some {a : α} {after : Cursor} (h : (parser cursor).result = some (a, after))
    (hshorter : after.rest.length < cursor.rest.length) :
    (many parser cursor).result =
      (many parser after).result.map fun read => (a :: read.1, read.2) := by
  rw [many]
  rcases hreply : parser cursor with ⟨result, furthest⟩
  rw [hreply] at h
  cases h
  simp only [if_pos hshorter]

/-- A character is read exactly where it stands. -/
theorem result_char_eq_some_iff {c : Char} {stop : Cursor} :
    (char c cursor).result = some ((), stop) ↔ Spelled [c] cursor stop := by
  constructor
  · intro h
    unfold char at h
    split at h
    next => cases h
    next d text hrest =>
      split at h
      next hd =>
        subst hd
        have hprefix : [d] <+: cursor.rest := ⟨text, hrest.symm⟩
        cases h
        exact spelled_skip hprefix
      next => cases h
  · intro h
    have hrest : cursor.rest = c :: stop.rest := h.rest
    have hstop : stop = cursor.skip 1 := h.eq_skip
    unfold char
    rw [hrest]
    simp [hstop]

/-- A mark is not read where another character comes next. -/
theorem result_mark_eq_none {c : Char} (h : cursor.ahead ≠ some c) :
    (mark c cursor).result = none := by
  rw [mark, result_padded, Option.map_eq_none_iff, Option.eq_none_iff_forall_ne_some]
  intro read hread
  have hspelled := (result_char_eq_some_iff cursor.settle).mp hread
  have hahead : cursor.ahead = some c := by
    rw [Cursor.ahead, hspelled.rest]
    rfl
  exact h hahead

end Parser

end MessageGrammar.Notation
