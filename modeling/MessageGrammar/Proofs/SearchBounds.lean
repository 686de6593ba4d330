import Mathlib.Algebra.Order.BigOperators.Group.List
import Mathlib.Tactic.Ring
import MessageGrammar.Proofs.Iteration
import MessageGrammar.Proofs.SearchRuns

/-!
# Bounds of the search

How many derivations a grammar has at most, and after how many rounds the search of a repetition is
done, is said by numbers that depend on the grammar and the length of the message. An iteration that
is followed uses up a token or one of the least count, so that a path of iterations is no longer
than both together; from each level there are as many ways on as the inner grammar has readings, and
inner grammars are bounded in the same way.
-/

namespace MessageGrammar

/-- A sum of so many numbers of such a size. -/
theorem sum_map_le {α : Type} {elements : List α} {f : α → Nat} {count most : Nat}
    (hcount : elements.length ≤ count) (h : ∀ a ∈ elements, f a ≤ most) :
    (elements.map f).sum ≤ count * most := by
  have hall : ∀ n ∈ elements.map f, n ≤ most := List.forall_mem_map.mpr h
  have hsum := (elements.map f).sum_le_card_nsmul most hall
  rw [List.length_map, Nat.nsmul_eq_mul] at hsum
  exact hsum.trans (Nat.mul_le_mul_right most hcount)

namespace Repetition

/-- The number of levels of a search that goes to the given depth and has the given number of ways
on from each level. -/
def branching (breadth : Nat) : Nat → Nat
  | 0 => 1
  | depth + 1 => 1 + breadth * branching breadth depth

/-- The sum as the library has it. -/
theorem total_eq_sum (numbers : List Nat) : total numbers = numbers.sum := by
  induction numbers with
  | nil => rfl
  | cons n others ih => rw [total, List.sum_cons, ih]

/-- A fresh frame alone remains to be done with its level. -/
theorem remaining_frame (repetition : Repetition) (count : Nat) (rest : List Token)
    (items : List Item) :
    repetition.remaining [repetition.frame count rest items] = repetition.rounds count rest := by
  rw [remaining, List.map_singleton, total, total, rounds_frame, Nat.add_zero]

variable {repetition : Repetition} {breadth length : Nat}
  (hsuffix : ∀ tokens, ∀ reading ∈ (repetition.step tokens).toList, reading.rest <:+ tokens)
  (hbreadth : ∀ tokens : List Token, tokens.length ≤ length →
    (repetition.step tokens).toList.length ≤ breadth)

include hbreadth in
/-- There are no more iterations from a level than the inner matcher has readings. -/
theorem length_stepsFrom_le {rest : List Token} (count : Nat) (hrest : rest.length ≤ length) :
    (repetition.stepsFrom count rest).toList.length ≤ breadth := by
  unfold stepsFrom
  split
  · split
    · exact Nat.zero_le breadth
    · exact hbreadth rest hrest
  · exact hbreadth rest hrest

include hsuffix in
/-- A followed iteration uses up a token or one of the least count, and gives no token back. -/
theorem depth_lt {count : Nat} {rest : List Token} {reading : Reading}
    (hreading : reading ∈ (repetition.stepsFrom count rest).toList)
    (hfollows : repetition.Follows count rest reading) :
    repetition.min - (count + 1) + reading.rest.length < repetition.min - count + rest.length ∧
      reading.rest.length ≤ rest.length := by
  have hle := (repetition.rest_suffix_of_mem_stepsFrom hsuffix count rest reading hreading).length_le
  unfold Follows at hfollows
  omega

include hsuffix hbreadth

/-- A number that a level owes to itself and to the followed iterations is bounded by what a level
owes to itself and the number of levels. The induction is on the depth that is left. -/
theorem le_branching {value : Nat → List Token → Nat} {own : Nat}
    (hvalue : ∀ count rest, rest.length ≤ length → value count rest ≤
      own + ((repetition.stepsFrom count rest).toList.map fun reading =>
        if repetition.Follows count rest reading then value (count + 1) reading.rest else 0).sum)
    {depth count : Nat} {rest : List Token} (hrest : rest.length ≤ length)
    (hdepth : repetition.min - count + rest.length ≤ depth) :
    value count rest ≤ own * branching breadth depth := by
  induction depth generalizing count rest with
  | zero =>
    have hlevel := hvalue count rest hrest
    have hsteps := length_stepsFrom_le hbreadth count hrest
    have hnone : ∀ reading ∈ (repetition.stepsFrom count rest).toList,
        (if repetition.Follows count rest reading
          then value (count + 1) reading.rest else 0) ≤ 0 := by
      intro reading hreading
      have hpass : ¬repetition.Follows count rest reading := by
        intro hfollows
        have hlt := (depth_lt hsuffix hreading hfollows).1
        omega
      rw [if_neg hpass]
    have hsum := sum_map_le hsteps hnone
    rw [branching]
    omega
  | succ depth ih =>
    have hlevel := hvalue count rest hrest
    have hsteps := length_stepsFrom_le hbreadth count hrest
    have hlater : ∀ reading ∈ (repetition.stepsFrom count rest).toList,
        (if repetition.Follows count rest reading
          then value (count + 1) reading.rest else 0) ≤ own * branching breadth depth := by
      intro reading hreading
      split
      next hfollows =>
        obtain ⟨hlt, hle⟩ := depth_lt hsuffix hreading hfollows
        exact ih (hle.trans hrest) (by omega)
      next => exact Nat.zero_le _
    have hsum := sum_map_le hsteps hlater
    calc value count rest
      _ ≤ own + breadth * (own * branching breadth depth) :=
          hlevel.trans (Nat.add_le_add_left hsum own)
      _ = own * branching breadth (depth + 1) := by
          rw [branching]
          ring

/-- A level has no more readings than there are levels from it on. -/
theorem length_unrolled_le {depth count : Nat} {rest : List Token} (hrest : rest.length ≤ length)
    (hdepth : repetition.min - count + rest.length ≤ depth) :
    (repetition.unrolled count rest).length ≤ branching breadth depth := by
  have hlevel : ∀ count rest, rest.length ≤ length → (repetition.unrolled count rest).length ≤
      1 + ((repetition.stepsFrom count rest).toList.map fun reading =>
        if repetition.Follows count rest reading
          then (repetition.unrolled (count + 1) reading.rest).length else 0).sum := by
    intro count rest _
    have hending : (repetition.ending count rest).length ≤ 1 := by
      unfold ending
      split <;> simp
    have hthrough : ∀ reading, (repetition.through count rest reading).length =
        if repetition.Follows count rest reading
          then (repetition.unrolled (count + 1) reading.rest).length else 0 := by
      intro reading
      unfold through
      split <;> simp
    rw [unrolled_eq, List.length_append, List.length_flatMap]
    simp only [hthrough]
    omega
  have hbound := le_branching hsuffix hbreadth hlevel hrest hdepth
  rwa [Nat.one_mul] at hbound

/-- A level is done with after a round for each level from it on and for each way on from these. -/
theorem rounds_le {depth count : Nat} {rest : List Token} (hrest : rest.length ≤ length)
    (hdepth : repetition.min - count + rest.length ≤ depth) :
    repetition.rounds count rest ≤ (1 + breadth) * branching breadth depth := by
  have hlevel : ∀ count rest, rest.length ≤ length → repetition.rounds count rest ≤
      1 + breadth + ((repetition.stepsFrom count rest).toList.map fun reading =>
        if repetition.Follows count rest reading
          then repetition.rounds (count + 1) reading.rest else 0).sum := by
    intro count rest hrest
    have hsteps := length_stepsFrom_le hbreadth count hrest
    have hone : ∀ reading : Reading, (if repetition.Follows count rest reading
        then 1 + repetition.rounds (count + 1) reading.rest else 1) =
          1 + if repetition.Follows count rest reading
            then repetition.rounds (count + 1) reading.rest else 0 := by
      intro reading
      split <;> rfl
    rw [rounds, total_eq_sum]
    simp only [hone, List.sum_map_add, List.map_const', List.sum_replicate, Nat.nsmul_eq_mul]
    omega
  exact le_branching hsuffix hbreadth hlevel hrest hdepth

end Repetition

namespace Grammar

open Repetition (branching)

mutual

/-- The greatest number of readings of so many tokens. -/
def mostReadings : Grammar → Nat → Nat
  | token _, _ => 1
  | drop inner, length => mostReadings inner length
  | seq parts, length => mostReadingsSeq parts length
  | alt alternatives, length => mostReadingsAlt alternatives length
  | first alternatives, length => mostReadingsAlt alternatives length
  | repetition inner min _, length => branching (mostReadings inner length) (min.toNat + length)
  | missing _, length => length + 1
  | tag _ inner, length => mostReadings inner length

/-- The greatest number of readings of all parts in order. -/
def mostReadingsSeq : List Grammar → Nat → Nat
  | [], _ => 1
  | part :: parts, length => mostReadings part length * mostReadingsSeq parts length

/-- The greatest number of readings of all alternatives together. -/
def mostReadingsAlt : List Grammar → Nat → Nat
  | [], _ => 0
  | alternative :: others, length =>
    mostReadings alternative length + mostReadingsAlt others length

end

/-- The greatest number of rounds of the search for a repetition of the grammar. -/
def mostRounds (inner : Grammar) (min length : Nat) : Nat :=
  (1 + inner.mostReadings length) * branching (inner.mostReadings length) (min + length)

/-- A grammar has no more readings of some tokens than its number for as many or more tokens. -/
theorem length_read_le (grammar : Grammar) {length : Nat} {tokens : List Token}
    (h : tokens.length ≤ length) :
    (grammar.read tokens).toList.length ≤ grammar.mostReadings length := by
  induction grammar generalizing tokens with
  | token kinds =>
    cases tokens with
    | nil => exact Nat.zero_le 1
    | cons t rest =>
      rw [read]
      split
      · exact Nat.le_refl 1
      · exact Nat.zero_le 1
  | drop inner ih =>
    rw [read, Enumeration.toList_map, List.length_map]
    exact ih h
  | seq parts ih =>
    rw [read, mostReadings]
    induction parts generalizing tokens with
    | nil => exact Nat.le_refl 1
    | cons part parts ihp =>
      obtain ⟨hpart, hparts⟩ := List.forall_mem_cons.mp ih
      have hlater : ∀ reading ∈ (part.read tokens).toList,
          ((readSeq parts reading.rest).map (Reading.after reading.items)).toList.length ≤
            mostReadingsSeq parts length := by
        intro reading hreading
        have hrest := (rest_suffix_of_mem_read part tokens reading hreading).length_le
        rw [Enumeration.toList_map, List.length_map]
        exact ihp hparts (hrest.trans h)
      rw [readSeq, Enumeration.toList_flatMap, List.length_flatMap, mostReadingsSeq]
      exact sum_map_le (hpart h) hlater
  | alt alternatives ih =>
    rw [read, mostReadings]
    induction alternatives with
    | nil => exact Nat.le_refl 0
    | cons alternative others iho =>
      obtain ⟨halternative, hothers⟩ := List.forall_mem_cons.mp ih
      rw [readAlt, Enumeration.toList_append, List.length_append, mostReadingsAlt]
      exact Nat.add_le_add (halternative h) (iho hothers)
  | first alternatives ih =>
    rw [read, mostReadings]
    induction alternatives with
    | nil => exact Nat.le_refl 0
    | cons alternative others iho =>
      obtain ⟨halternative, hothers⟩ := List.forall_mem_cons.mp ih
      rw [toList_readFirst_cons, mostReadingsAlt]
      split
      · exact (iho hothers).trans (Nat.le_add_left _ _)
      · exact (halternative h).trans (Nat.le_add_right _ _)
  | repetition inner min max ih =>
    rw [read, Repetition.toList_enumerate, mostReadings]
    have hdepth : min.toNat - 0 + tokens.length ≤ min.toNat + length := by omega
    refine Repetition.length_unrolled_le ?_ ?_ h hdepth
    · exact inner.rest_suffix_of_mem_read
    · exact fun _ => ih
  | missing label =>
    have hlength := congrArg List.length (taken_suffixes tokens)
    rw [List.length_map, List.length_range] at hlength
    rw [read, Enumeration.toList_map, List.length_map, Enumeration.toList_ofList,
      List.length_reverse, hlength]
    exact Nat.succ_le_succ h
  | tag name inner ih =>
    rw [read, Enumeration.toList_map, List.length_map]
    exact ih h

/-- Matching comes to an end, and the frames of its repetitions are a path through the message. From
every position of a message, a grammar has a bounded number of derivations. The search of a
repetition has given out all its derivations after a bounded number of rounds; and after any number
of rounds, its frames are a chain of derivations of the inner grammar with the counts that the
bounds allow, and the next call for a derivation is done after a bounded number of rounds. -/
theorem search_ends_with_frames_chained {tokens : List Token} {start : Nat}
    (hs : start ≤ tokens.length) :
    (∀ grammar : Grammar, (grammar.derivationsFrom tokens start).toList.length ≤
      grammar.mostReadings (tokens.length - start)) ∧
    ∀ (inner : Grammar) (min : UInt64) (max : Option UInt64),
      let search := Repetition.mk inner.read min.toNat (max.map UInt64.toNat)
      let fresh := [search.frame 0 (tokens.drop start) []]
      let most := inner.mostRounds min.toNat (tokens.length - start)
      (∃ n ≤ most, ∃ readings, search.run n fresh = (readings, []) ∧
        ((repetition inner min max).derivationsFrom tokens start).toList =
          readings.map (Reading.place start (tokens.length - start))) ∧
      ∀ n, FrameChain inner min.toNat (max.map UInt64.toNat) tokens start (search.run n fresh).2 ∧
        ∃ k ≤ most, ∃ reading, search.next? k (search.run n fresh).2 =
          some (reading, (search.run (n + k) fresh).2) := by
  have hlength : (tokens.drop start).length = tokens.length - start := List.length_drop
  constructor
  · intro grammar
    rw [toList_derivationsFrom, List.length_map]
    exact grammar.length_read_le hlength.le
  · intro inner min max search fresh most
    have hmost : search.remaining fresh ≤ most := by
      have hdepth : min.toNat - 0 + (tokens.drop start).length ≤
          min.toNat + (tokens.length - start) := by omega
      rw [search.remaining_frame]
      exact Repetition.rounds_le inner.rest_suffix_of_mem_read
        (fun _ => inner.length_read_le) hlength.le hdepth
    constructor
    · obtain ⟨n, hn, hrun⟩ := search.exists_run_eq_pending fresh
      refine ⟨n, hn.trans hmost, _, hrun, ?_⟩
      rw [toList_derivationsFrom, read, hlength, Repetition.enumerate, Repetition.toList_readings]
    · intro n
      constructor
      · exact frameChain_of_stacked hs ((Repetition.Stacked.fresh _ _).run n)
      · obtain ⟨k, hk, reading, hnext, -⟩ := search.exists_next?_eq_some (search.run n fresh).2
        have hremaining := search.remaining_run_le n fresh
        refine ⟨k, (hk.trans hremaining).trans hmost, reading, ?_⟩
        rw [search.run_add]
        exact hnext

/-- A word that may be left out, at least twice: iterations that take nothing are followed up to the
least count only, and the search of one word ends with four derivations. -/
theorem optional_words_search_ends :
    0 ≤ [Token.word "Ann"].length ∧
      ((repetition word.optional 2 none).derivationsFrom [.word "Ann"] 0).toList.map
        Derivation.stop = [1, 1, 1, 0] ∧
      ((repetition word.optional 2 none).derivationsFrom [.word "Ann"] 0).toList.length ≤ 15 ∧
      let search := Repetition.mk word.optional.read 2 none
      FrameChain word.optional 2 none [.word "Ann"] 0
        (search.run 2 [search.frame 0 [.word "Ann"] []]).2 := by
  have hstart : 0 ≤ [Token.word "Ann"].length := Nat.zero_le _
  obtain ⟨hbound, hsearch⟩ := search_ends_with_frames_chained hstart
  have hmost : (repetition word.optional 2 none).mostReadings 1 = 15 := by decide
  have hstops : ((repetition word.optional 2 none).derivationsFrom [.word "Ann"] 0).toList.map
      Derivation.stop = [1, 1, 1, 0] := by
    rw [toList_derivationsFrom, read, map_place_enumerate]
    cbv
  have hframes := ((hsearch word.optional 2 none).2 2).1
  exact ⟨hstart, hstops, hmost ▸ hbound _, hframes⟩

end Grammar

end MessageGrammar
