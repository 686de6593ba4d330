import Mathlib.Computability.Language
import Mathlib.Order.CompletePartialOrder
import MessageGrammar.Proofs.NotationSoundness

/-!
# The languages of parsers

What a parser takes belongs to a language. Where it fails, the text up to the furthest place that any
attempt came to has been begun well: with more text behind it it belongs to the language. Both are
kept when parsers are put together as languages are: one behind the other, one or the other, optional
or repeated.
-/

namespace MessageGrammar.Notation

open scoped Computability

/-- Some text of a language stands between two places. -/
def Stands (language : Language Char) : Stretch := fun start stop =>
  ∃ text ∈ language, Spelled text start stop

section Stands

variable {l m : Language Char} {start stop : Cursor}

/-- No characters stand between a place and itself only. -/
theorem stands_one_iff : Stands 1 start stop ↔ stop = start := by
  rw [← spelled_nil_iff]
  constructor
  · rintro ⟨text, rfl, h⟩
    exact h
  · exact fun h => ⟨[], Language.nil_mem_one, h⟩

/-- A text of either language stands there. -/
theorem stands_add_iff : Stands (l + m) start stop ↔ Stands l start stop ∨ Stands m start stop := by
  constructor
  · rintro ⟨text, htext | htext, h⟩
    · exact .inl ⟨text, htext, h⟩
    · exact .inr ⟨text, htext, h⟩
  · rintro (⟨text, htext, h⟩ | ⟨text, htext, h⟩)
    · exact ⟨text, .inl htext, h⟩
    · exact ⟨text, .inr htext, h⟩

/-- A text of one language stands there and behind it one of the other. -/
theorem stands_mul_iff :
    Stands (l * m) start stop ↔ ∃ middle, Stands l start middle ∧ Stands m middle stop := by
  constructor
  · rintro ⟨_, ⟨text, htext, more, hmore, rfl⟩, h⟩
    obtain ⟨middle, hfirst, hsecond⟩ := spelled_append_iff.mp h
    exact ⟨middle, ⟨text, htext, hfirst⟩, more, hmore, hsecond⟩
  · rintro ⟨middle, ⟨text, htext, hfirst⟩, more, hmore, hsecond⟩
    exact ⟨text ++ more, Language.append_mem_mul htext hmore,
      spelled_append_iff.mpr ⟨middle, hfirst, hsecond⟩⟩

/-- A single text stands there. -/
theorem stands_singleton_iff {text : List Char} :
    Stands {text} start stop ↔ Spelled text start stop := by
  constructor
  · rintro ⟨_, rfl, h⟩
    exact h
  · exact fun h => ⟨text, rfl, h⟩

/-- Texts of two languages make one of their product. -/
theorem exists_mem_mul (hl : ∃ text, text ∈ l) (hm : ∃ text, text ∈ m) : ∃ text, text ∈ l * m := by
  obtain ⟨text, htext⟩ := hl
  obtain ⟨more, hmore⟩ := hm
  exact ⟨text ++ more, Language.append_mem_mul htext hmore⟩

/-- What need not be there has at least the empty text. -/
theorem exists_mem_add_one : ∃ text, text ∈ l + 1 :=
  ⟨[], .inr rfl⟩

end Stands

namespace Failure

/-- Where a failure is reported: at the digits of a count that is too great, else at the character
that stopped the attempts. -/
def place (failure : Failure) : Span :=
  failure.excess.getD ⟨failure.position, failure.position⟩

/-- The further of two failures is reported where one of them is. -/
theorem place_max (a b : Failure) : (a.max b).place = a.place ∨ (a.max b).place = b.place := by
  rw [max]
  split
  next => exact .inr rfl
  next hnot =>
    split
    next => exact .inl rfl
    next hnot' =>
      have hsame : a.position = b.position := by omega
      cases hexcess : a.excess with
      | some digits => exact .inl (by rw [place, place, hexcess]; rfl)
      | none => exact .inr (by rw [place, place, Option.none_or, hsame])

end Failure

/-- A failure is reported where a text of a language has been begun, or without any attempt. -/
def Begun (language : Language Char) (start : Cursor) (failure : Failure) : Prop :=
  failure.place = ⟨0, 0⟩ ∨
    ∃ place stop text more, Spelled text start place ∧ Forward place stop ∧
      failure.place = ⟨place.position, stop.position⟩ ∧ text ++ more ∈ language

section Begun

variable {l m : Language Char} {start middle : Cursor} {failure other : Failure}

/-- Where nothing was attempted nothing is reported. -/
theorem begun_none : Begun l start .none :=
  .inl rfl

/-- Of two failures the further one is reported. -/
theorem Begun.max (h : Begun l start failure) (h' : Begun l start other) :
    Begun l start (failure.max other) := by
  unfold Begun
  rcases Failure.place_max failure other with hplace | hplace
  · rw [hplace]
    exact h
  · rw [hplace]
    exact h'

/-- A text of a part of a language is a text of the language. -/
theorem Begun.mono (h : Begun l start failure) (hle : l ≤ m) : Begun m start failure := by
  refine h.imp_right ?_
  rintro ⟨place, stop, text, more, hspelled, hforward, hplace, hmem⟩
  exact ⟨place, stop, text, more, hspelled, hforward, hplace, hle hmem⟩

/-- A text that was begun behind another one was begun with it. -/
theorem Begun.behind {text : List Char} (hspelled : Spelled text start middle)
    (h : Begun m middle failure) (hle : ∀ more ∈ m, text ++ more ∈ l) : Begun l start failure := by
  refine h.imp_right ?_
  rintro ⟨place, stop, begun, more, hbegun, hforward, hplace, hmem⟩
  refine ⟨place, stop, text ++ begun, more, ?_, hforward, hplace, ?_⟩
  · exact spelled_append_iff.mpr ⟨middle, hspelled, hbegun⟩
  · rw [List.append_assoc]
    exact hle _ hmem

/-- A text that was begun can be completed by more than one part. -/
theorem Begun.before (h : Begun l start failure) (hm : ∃ text, text ∈ m) :
    Begun (l * m) start failure := by
  obtain ⟨last, hlast⟩ := hm
  refine h.imp_right ?_
  rintro ⟨place, stop, text, more, hspelled, hforward, hplace, hmem⟩
  refine ⟨place, stop, text, more ++ last, hspelled, hforward, hplace, ?_⟩
  rw [← List.append_assoc]
  exact Language.append_mem_mul hmem hlast

/-- An attempt that fails at once leaves a text to be written from the start. -/
theorem begun_single {text : List Char} (h : text ∈ l) (start : Cursor) (expected : Expectation) :
    Begun l start (.single start.position expected) :=
  .inr ⟨start, start, [], text, spelled_nil_iff.mpr rfl, .refl start, rfl, h⟩

end Begun

/-- The texts that a rule allows, wherever they stand. -/
def texts {α : Type} (rule : α → Stretch) : Language Char :=
  {text | ∀ start stop, Spelled text start stop → ∃ a, rule a start stop}

section Texts

variable {α : Type} {rule : α → Stretch} {l : Language Char} {start stop : Cursor}

/-- What stands somewhere as a text of a rule is allowed there by the rule. -/
theorem exists_of_stands (h : Stands (texts rule) start stop) : ∃ a, rule a start stop := by
  obtain ⟨text, htext, hspelled⟩ := h
  exact htext start stop hspelled

/-- A language is part of the texts of a rule if the rule allows it everywhere. -/
theorem le_texts (h : ∀ start stop, Stands l start stop → ∃ a, rule a start stop) :
    l ≤ texts rule :=
  fun text htext start stop hspelled => h start stop ⟨text, htext, hspelled⟩

/-- What is allowed by itself is allowed without white space around it. -/
theorem mem_texts_padded {text : List Char} (h : text ∈ texts rule) :
    text ∈ texts fun a => Padded (rule a) := by
  intro start stop hspelled
  obtain ⟨a, ha⟩ := h start stop hspelled
  exact ⟨a, .of_bare ha⟩

end Texts

namespace Parser

/-- What a parser takes belongs to a language, and so does, once it is completed, what stands before
its furthest failure. -/
structure Tracks {α : Type} (parser : Parser α) (language : Language Char) : Prop where
  /-- A text of the language is taken. -/
  taken {start stop : Cursor} {a : α} (h : (parser start).result = some (a, stop)) :
    Stands language start stop
  /-- A text of the language was begun. -/
  begun (start : Cursor) : Begun language start (parser start).furthest

section Combinators

variable {α β : Type} {parser other : Parser α} {l m : Language Char}

/-- A language may be exchanged for a greater one. -/
theorem Tracks.mono (h : Tracks parser l) (hle : l ≤ m) : Tracks parser m := by
  refine ⟨fun hresult => ?_, fun start => (h.begun start).mono hle⟩
  obtain ⟨text, htext, hspelled⟩ := h.taken hresult
  exact ⟨text, hle htext, hspelled⟩

/-- A parser that reads nothing tracks the empty text. -/
theorem tracks_pure (a : α) : Tracks (pure a : Parser α) 1 := by
  refine ⟨fun h => ?_, fun _ => begun_none⟩
  cases h
  exact stands_one_iff.mpr rfl

/-- What comes behind a text goes on with it. -/
theorem tracks_bind {next : α → Parser β}
    (hbegun : ∀ start, Begun l start (parser start).furthest)
    (hnext : ∀ start a middle, (parser start).result = some (a, middle) →
      ∃ text rest, Spelled text start middle ∧ Tracks (next a) rest ∧
        ∀ more ∈ rest, text ++ more ∈ l) :
    Tracks (parser >>= next) l := by
  constructor
  · intro start stop b h
    obtain ⟨a, middle, hfirst, hsecond⟩ := result_andThen.mp h
    obtain ⟨text, rest, hspelled, htracks, hle⟩ := hnext start a middle hfirst
    obtain ⟨more, hmore, hbehind⟩ := htracks.taken hsecond
    exact ⟨text ++ more, hle more hmore, spelled_append_iff.mpr ⟨middle, hspelled, hbehind⟩⟩
  · intro start
    have hfirst := hbegun start
    have hsecond := hnext start
    show Begun l start (andThen parser next start).furthest
    unfold andThen
    rcases hreply : parser start with ⟨_ | ⟨a, middle⟩, furthest⟩ <;> rw [hreply] at hfirst hsecond
    · exact hfirst
    · obtain ⟨text, rest, hspelled, htracks, hle⟩ := hsecond a middle rfl
      exact hfirst.max ((htracks.begun middle).behind hspelled hle)

/-- One text comes behind the other. -/
theorem Tracks.bind {next : α → Parser β} (h : Tracks parser l) (hnext : ∀ a, Tracks (next a) m)
    (hm : ∃ text, text ∈ m) : Tracks (parser >>= next) (l * m) := by
  refine tracks_bind (fun start => (h.begun start).before hm) fun start a middle hresult => ?_
  obtain ⟨text, htext, hspelled⟩ := h.taken hresult
  exact ⟨text, m, hspelled, hnext a, fun more hmore => Language.append_mem_mul htext hmore⟩

/-- A place is told without going on. -/
theorem tracks_position {next : Nat → Parser α} (hnext : ∀ n, Tracks (next n) l) :
    Tracks (position >>= next) l := by
  refine tracks_bind (fun _ => begun_none) fun start n middle hresult => ?_
  cases hresult
  exact ⟨[], l, spelled_nil_iff.mpr rfl, hnext start.position, fun _ hmore => hmore⟩

/-- What is made of a value does not change the text. -/
theorem Tracks.map (h : Tracks parser l) (f : α → β) : Tracks (f <$> parser) l := by
  have htracks := h.bind (fun a => tracks_pure (f a)) ⟨[], Language.nil_mem_one⟩
  rw [mul_one] at htracks
  exact htracks

/-- A value that need not be there leaves its text or nothing. -/
theorem Tracks.optional (h : Tracks parser l) : Tracks (optional parser) (l + 1) := by
  constructor
  · intro start stop a hresult
    rw [result_optional, Option.some_inj] at hresult
    cases hread : (parser start).result with
    | none =>
      rw [hread] at hresult
      cases hresult
      exact stands_add_iff.mpr (.inr (stands_one_iff.mpr rfl))
    | some read =>
      rw [hread] at hresult
      cases hresult
      exact stands_add_iff.mpr (.inl (h.taken hread))
  · intro start
    have hbegun := (h.begun start).mono (le_sup_left : l ≤ l + 1)
    unfold Parser.optional
    rcases hreply : parser start with ⟨_ | _, furthest⟩ <;> rw [hreply] at hbegun <;> exact hbegun

/-- One of two values leaves its text. -/
theorem Tracks.orElse (h : Tracks parser l) (hother : Tracks other l) :
    Tracks (orElse parser other) l := by
  constructor
  · intro start stop a hresult
    rw [result_orElse] at hresult
    cases hread : (parser start).result with
    | none =>
      rw [hread] at hresult
      exact hother.taken hresult
    | some read =>
      rw [hread] at hresult
      cases hresult
      exact h.taken hread
  · intro start
    have hbegun := h.begun start
    unfold Parser.orElse
    rcases hreply : parser start with ⟨_ | _, furthest⟩ <;> rw [hreply] at hbegun
    · exact hother.begun start
    · exact hbegun

/-- A text of a language may stand before texts of it. -/
theorem append_mem_kstar {text more : List Char} (htext : text ∈ l) (hmore : more ∈ l∗) :
    text ++ more ∈ l∗ :=
  (mul_kstar_le_kstar : l * l∗ ≤ l∗) (Language.append_mem_mul htext hmore)

/-- Values behind each other leave their texts behind each other. -/
theorem Tracks.stands_of_many (h : Tracks parser l) (as : List α) (start stop : Cursor)
    (hresult : (many parser start).result = some (as, stop)) : Stands l∗ start stop := by
  fun_induction Parser.many parser start generalizing as stop with
  | case1 start _ _ =>
    cases hresult
    exact ⟨[], Language.nil_mem_kstar l, spelled_nil_iff.mpr rfl⟩
  | case2 start a after _ hread _ others ih =>
    obtain ⟨⟨tail, _⟩, htail, heq⟩ := Option.map_eq_some_iff.mp hresult
    cases heq
    obtain ⟨text, htext, hspelled⟩ := h.taken (by rw [hread])
    obtain ⟨more, hmore, hbehind⟩ := ih _ _ htail
    exact ⟨text ++ more, append_mem_kstar htext hmore,
      spelled_append_iff.mpr ⟨after, hspelled, hbehind⟩⟩
  | case3 start a after _ hread _ =>
    cases hresult
    obtain ⟨text, htext, hspelled⟩ := h.taken (by rw [hread])
    exact ⟨text, (le_kstar : l ≤ l∗) htext, hspelled⟩

/-- The last of the values was begun behind the others. -/
theorem Tracks.many (h : Tracks parser l) : Tracks (many parser) l∗ := by
  refine ⟨h.stands_of_many _ _ _, fun start => ?_⟩
  fun_induction Parser.many parser start with
  | case1 start furthest hread =>
    have hbegun := (h.begun start).mono (le_kstar : l ≤ l∗)
    rwa [hread] at hbegun
  | case2 start a after furthest hread _ others ih =>
    have hbegun := (h.begun start).mono (le_kstar : l ≤ l∗)
    rw [hread] at hbegun
    obtain ⟨text, htext, hspelled⟩ := h.taken (by rw [hread])
    exact hbegun.max (ih.behind hspelled fun _ => append_mem_kstar htext)
  | case3 start a after furthest hread _ =>
    have hbegun := (h.begun start).mono (le_kstar : l ≤ l∗)
    rwa [hread] at hbegun

end Combinators

end Parser

end MessageGrammar.Notation
