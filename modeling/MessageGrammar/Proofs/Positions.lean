import Mathlib.Data.List.Basic
import MessageGrammar.Grammar.Derivation
import MessageGrammar.Proofs.Unrolling

/-!
# Derivations by position

Matching hands on the tokens that are left, derivations speak of positions in the message. What a
reading leaves is an end of the tokens it was given, so its stop is the position where the tokens
left begin, and a reading that follows another one can be placed at the stop of the first. From this
every constructor of grammars gets an equation between lists of derivations; all that is said about
derivations elsewhere rests on these equations and on the bounds of positions.
-/

namespace MessageGrammar

namespace Repetition

variable (repetition : Repetition)
  (hstep : ∀ tokens, ∀ reading ∈ (repetition.step tokens).toList, reading.rest <:+ tokens)

include hstep

/-- An iteration that is tried leaves an end of the tokens of its level. -/
theorem rest_suffix_of_mem_stepsFrom (count : Nat) (rest : List Token) :
    ∀ reading ∈ (repetition.stepsFrom count rest).toList, reading.rest <:+ rest := by
  intro reading hr
  unfold stepsFrom at hr
  split at hr
  · split at hr
    · exact absurd hr List.not_mem_nil
    · exact hstep rest reading hr
  · exact hstep rest reading hr

/-- What a repetition leaves is an end of the tokens it was given, if that holds of its
iterations. -/
theorem rest_suffix_of_mem_unrolled (count : Nat) (rest : List Token) :
    ∀ reading ∈ repetition.unrolled count rest, reading.rest <:+ rest := by
  induction count, rest using unrolled.induct repetition with
  | case1 count rest ih =>
    intro reading hr
    rw [unrolled_eq, List.mem_append, List.mem_flatMap] at hr
    rcases hr with ⟨step, hs, hr⟩ | hr
    · have hfirst := repetition.rest_suffix_of_mem_stepsFrom hstep count rest step hs
      unfold through at hr
      split at hr
      next hf =>
        obtain ⟨later, hl, rfl⟩ := List.mem_map.mp hr
        have hlater := ih step hf later hl
        exact hlater.trans hfirst
      next => exact absurd hr List.not_mem_nil
    · unfold ending at hr
      split at hr
      · rw [List.mem_singleton.mp hr]
        exact List.suffix_refl rest
      · exact absurd hr List.not_mem_nil

end Repetition

namespace Grammar

/-- The earliest alternative that has readings gives all of them. -/
theorem toList_readFirst_cons (alternative : Grammar) (others : List Grammar)
    (tokens : List Token) :
    (readFirst (alternative :: others) tokens).toList =
      if (alternative.read tokens).toList = [] then (readFirst others tokens).toList
      else (alternative.read tokens).toList := by
  rw [readFirst]
  cases alternative.read tokens <;> simp

/-- What a reading leaves is an end of the tokens it was given. -/
theorem rest_suffix_of_mem_read (grammar : Grammar) (tokens : List Token) :
    ∀ reading ∈ (grammar.read tokens).toList, reading.rest <:+ tokens := by
  induction grammar generalizing tokens with
  | token kinds =>
    intro reading hr
    cases tokens with
    | nil => simp [read] at hr
    | cons t rest =>
      rw [read] at hr
      split at hr
      · rw [Enumeration.toList_single, List.mem_singleton] at hr
        rw [hr]
        exact List.suffix_cons t rest
      · simp at hr
  | drop inner ih =>
    intro reading hr
    rw [read, Enumeration.toList_map] at hr
    obtain ⟨found, hf, rfl⟩ := List.mem_map.mp hr
    exact ih tokens found hf
  | seq parts ih =>
    rw [read]
    induction parts generalizing tokens with
    | nil => simp [readSeq, Reading.empty]
    | cons part parts ihp =>
      intro reading hr
      rw [readSeq, Enumeration.toList_flatMap, List.mem_flatMap] at hr
      obtain ⟨first, hf, hr⟩ := hr
      rw [Enumeration.toList_map] at hr
      obtain ⟨later, hl, rfl⟩ := List.mem_map.mp hr
      have htail := ihp (fun p hp => ih p (List.mem_cons_of_mem part hp)) first.rest later hl
      exact htail.trans (ih part List.mem_cons_self tokens first hf)
  | alt alternatives ih =>
    rw [read]
    induction alternatives with
    | nil => simp [readAlt]
    | cons alternative others iho =>
      intro reading hr
      rw [readAlt, Enumeration.toList_append, List.mem_append] at hr
      rcases hr with hr | hr
      · exact ih alternative List.mem_cons_self tokens reading hr
      · exact iho (fun a ha => ih a (List.mem_cons_of_mem alternative ha)) reading hr
  | first alternatives ih =>
    rw [read]
    induction alternatives with
    | nil => simp [readFirst]
    | cons alternative others iho =>
      intro reading hr
      rw [toList_readFirst_cons] at hr
      split at hr
      · exact iho (fun a ha => ih a (List.mem_cons_of_mem alternative ha)) reading hr
      · exact ih alternative List.mem_cons_self tokens reading hr
  | repetition inner min max ih =>
    rw [read, Repetition.toList_enumerate]
    exact Repetition.rest_suffix_of_mem_unrolled _ ih 0 tokens
  | missing label =>
    intro reading hr
    rw [read, Enumeration.toList_map, Enumeration.toList_ofList] at hr
    obtain ⟨rest, hrest, rfl⟩ := List.mem_map.mp hr
    exact mem_suffixes.mp (List.mem_reverse.mp hrest)
  | tag name inner ih =>
    intro reading hr
    rw [read, Enumeration.toList_map] at hr
    obtain ⟨found, hf, rfl⟩ := List.mem_map.mp hr
    rw [Reading.rest_tagged]
    exact ih tokens found hf

end Grammar

namespace Derivation

/-- A derivation that starts where earlier items end. -/
def after (earlier : List Item) (derivation : Derivation) : Derivation :=
  ⟨earlier ++ derivation.items, derivation.stop⟩

/-- The same tokens taken, without items. -/
def dropItems (derivation : Derivation) : Derivation :=
  ⟨[], derivation.stop⟩

/-- The items as one named field; a derivation with a diagnostic stays as it is. -/
def tagged (name : String) (derivation : Derivation) : Derivation :=
  if derivation.items.any Item.isDiagnostic then derivation
  else ⟨[.field name (derivation.items.flatMap Item.tokens)], derivation.stop⟩

end Derivation

namespace Reading

variable {tokens : List Token} {start : Nat} {reading later : Reading}

/-- The tokens left by a reading begin at the stop of the placed reading. -/
theorem drop_stop_place (h : reading.rest <:+ tokens.drop start) :
    tokens.drop (reading.place start (tokens.drop start).length).stop = reading.rest := by
  obtain ⟨taken, ht⟩ := h
  have hlength : (tokens.drop start).length - reading.rest.length = taken.length := by
    rw [← ht, List.length_append]
    omega
  rw [place, hlength, ← List.drop_drop, ← ht, List.drop_left]

/-- A reading of the tokens that an earlier reading leaves is placed at the earlier one's stop. -/
theorem place_after (h : reading.rest <:+ tokens.drop start) (hl : later.rest <:+ reading.rest) :
    (later.after reading.items).place start (tokens.drop start).length =
      (later.place (reading.place start (tokens.drop start).length).stop
        reading.rest.length).after reading.items := by
  have hr := h.length_le
  have hlr := hl.length_le
  have hstop : start + ((tokens.drop start).length - later.rest.length) =
      start + ((tokens.drop start).length - reading.rest.length) +
        (reading.rest.length - later.rest.length) := by omega
  simp only [place, after, Derivation.after, hstop]

/-- Readings of the tokens that an earlier reading leaves, placed at the earlier one's stop. -/
theorem map_place_after {readings : List Reading} (h : reading.rest <:+ tokens.drop start)
    (hl : ∀ later ∈ readings, later.rest <:+ reading.rest) :
    (readings.map (after reading.items)).map (place start (tokens.drop start).length) =
      (readings.map (place (reading.place start (tokens.drop start).length).stop
        reading.rest.length)).map (Derivation.after reading.items) := by
  rw [List.map_map, List.map_map]
  apply List.map_congr_left
  intro later hm
  exact place_after h (hl later hm)

/-- Tagging and placing do not meet. -/
theorem place_tagged (name : String) (length : Nat) :
    (reading.tagged name).place start length = (reading.place start length).tagged name := by
  unfold tagged Derivation.tagged place
  split <;> rfl

end Reading

namespace Grammar

variable (tokens : List Token) (start : Nat)

/-- Derivations are the readings of the tokens ahead, placed at the start. -/
theorem toList_derivationsFrom (grammar : Grammar) :
    (grammar.derivationsFrom tokens start).toList =
      (grammar.read (tokens.drop start)).toList.map
        (Reading.place start (tokens.drop start).length) := by
  simp [derivationsFrom]

/-- A derivation does not stop before its start, nor behind the last token unless it starts there. -/
theorem bounds_of_mem_derivationsFrom {grammar : Grammar} {tokens : List Token} {start : Nat}
    {derivation : Derivation} (h : derivation ∈ (grammar.derivationsFrom tokens start).toList) :
    start ≤ derivation.stop ∧ derivation.stop ≤ max start tokens.length := by
  rw [toList_derivationsFrom] at h
  obtain ⟨reading, hr, rfl⟩ := List.mem_map.mp h
  have hrest := (rest_suffix_of_mem_read grammar _ reading hr).length_le
  simp only [Reading.place, List.length_drop] at hrest ⊢
  omega

/-- A class takes the token at the start, if it accepts it. -/
theorem toList_derivationsFrom_token (kinds : TokenClass) :
    ((token kinds).derivationsFrom tokens start).toList =
      match tokens[start]? with
      | some t => if kinds.accepts t.kind then [⟨[.token t], start + 1⟩] else []
      | none => [] := by
  rw [toList_derivationsFrom]
  rcases Nat.lt_or_ge start tokens.length with hs | hs
  · rw [List.drop_eq_getElem_cons hs, List.getElem?_eq_getElem hs, read]
    dsimp only
    split
    · simp only [Enumeration.toList_single, List.map_cons, List.map_nil, Reading.place,
        List.length_cons, List.length_drop]
      rw [Nat.add_sub_cancel_left]
    · rfl
  · rw [List.drop_eq_nil_of_le hs, List.getElem?_eq_none hs, read]
    rfl

/-- Dropping keeps the stops of all derivations. -/
theorem toList_derivationsFrom_drop (inner : Grammar) :
    ((drop inner).derivationsFrom tokens start).toList =
      (inner.derivationsFrom tokens start).toList.map Derivation.dropItems := by
  rw [toList_derivationsFrom, toList_derivationsFrom, read, Enumeration.toList_map, List.map_map,
    List.map_map]
  rfl

/-- The empty sequence stops where it starts. -/
theorem toList_derivationsFrom_seq_nil :
    ((seq []).derivationsFrom tokens start).toList = [⟨[], start⟩] := by
  simp [toList_derivationsFrom, read, readSeq, Reading.empty, Reading.place]

/-- A sequence goes on from every stop of its first part, in order. -/
theorem toList_derivationsFrom_seq_cons (part : Grammar) (parts : List Grammar) :
    ((seq (part :: parts)).derivationsFrom tokens start).toList =
      (part.derivationsFrom tokens start).toList.flatMap fun found =>
        ((seq parts).derivationsFrom tokens found.stop).toList.map
          (Derivation.after found.items) := by
  rw [toList_derivationsFrom, toList_derivationsFrom, read, readSeq, Enumeration.toList_flatMap,
    List.map_flatMap, List.flatMap_map]
  apply List.flatMap_congr
  intro reading hr
  have hrest := rest_suffix_of_mem_read part _ reading hr
  have hlater : ∀ later ∈ (readSeq parts reading.rest).toList, later.rest <:+ reading.rest := by
    have hseq := rest_suffix_of_mem_read (seq parts) reading.rest
    rwa [read] at hseq
  rw [Enumeration.toList_map, Reading.map_place_after hrest hlater, toList_derivationsFrom,
    Reading.drop_stop_place hrest, read]
  rfl

/-- An alternation lists the derivations of one alternative after another. -/
theorem toList_derivationsFrom_alt (alternatives : List Grammar) :
    ((alt alternatives).derivationsFrom tokens start).toList =
      alternatives.flatMap fun alternative =>
        (alternative.derivationsFrom tokens start).toList := by
  rw [toList_derivationsFrom, read]
  induction alternatives with
  | nil => rfl
  | cons alternative others ih =>
    rw [readAlt, Enumeration.toList_append, List.map_append, ih, List.flatMap_cons,
      toList_derivationsFrom]

/-- A choice among nothing has no derivation. -/
theorem toList_derivationsFrom_first_nil :
    ((first []).derivationsFrom tokens start).toList = [] := by
  simp [toList_derivationsFrom, read, readFirst]

/-- A choice by priority has the derivations of the first alternative, if it has any. -/
theorem toList_derivationsFrom_first_cons (alternative : Grammar) (others : List Grammar) :
    ((first (alternative :: others)).derivationsFrom tokens start).toList =
      if (alternative.derivationsFrom tokens start).toList = [] then
        ((first others).derivationsFrom tokens start).toList
      else (alternative.derivationsFrom tokens start).toList := by
  simp only [toList_derivationsFrom, read, toList_readFirst_cons, List.map_eq_nil_iff]
  split <;> rfl

/-- The ends of some tokens leave out every number of them, none first. -/
theorem taken_suffixes (ahead : List Token) :
    (suffixes ahead).map (fun rest => ahead.length - rest.length) =
      List.range (ahead.length + 1) := by
  induction ahead with
  | nil => rfl
  | cons t ahead ih =>
    have hshift : (suffixes ahead).map (fun rest => (t :: ahead).length - rest.length) =
        (List.range (ahead.length + 1)).map Nat.succ := by
      rw [← ih, List.map_map]
      apply List.map_congr_left
      intro rest hr
      have hlength := (mem_suffixes.mp hr).length_le
      simp only [List.length_cons, Function.comp_apply]
      omega
    rw [suffixes, List.map_cons, hshift, Nat.sub_self, List.length_cons,
      ← List.range_succ_eq_map]

/-- A missing field takes every number of the tokens ahead, the greatest first. -/
theorem toList_derivationsFrom_missing (label : String) :
    ((missing label).derivationsFrom tokens start).toList =
      (List.range (tokens.length - start + 1)).reverse.map fun taken =>
        ⟨[.diagnostic label], start + taken⟩ := by
  have hplace : ∀ rest : List Token,
      Reading.place start (tokens.drop start).length ⟨[.diagnostic label], rest⟩ =
        ⟨[.diagnostic label], start + ((tokens.drop start).length - rest.length)⟩ := by
    intro rest
    rfl
  rw [toList_derivationsFrom, read, Enumeration.toList_map, Enumeration.toList_ofList, List.map_map,
    ← List.length_drop, ← taken_suffixes, ← List.map_reverse, List.map_map]
  apply List.map_congr_left
  intro rest _
  exact hplace rest

/-- Tagging changes the items of each derivation and nothing else. -/
theorem toList_derivationsFrom_tag (name : String) (inner : Grammar) :
    ((tag name inner).derivationsFrom tokens start).toList =
      (inner.derivationsFrom tokens start).toList.map (Derivation.tagged name) := by
  rw [toList_derivationsFrom, toList_derivationsFrom, read, Enumeration.toList_map, List.map_map,
    List.map_map]
  apply List.map_congr_left
  intro reading _
  exact Reading.place_tagged name _

end Grammar

end MessageGrammar
