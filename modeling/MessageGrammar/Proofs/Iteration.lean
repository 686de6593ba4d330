import MessageGrammar.Proofs.Positions

/-!
# Repetition by position

The derivations of a repetition are listed by a recursion on the count of iterations and the position
reached, with no stack and no suspended search in it. Its main statement is that matching gives
exactly this list. As a set, the list consists of the chains of iterations of which all but the first
few take a token.
-/

namespace MessageGrammar

/-- A relation between a start, items and a stop. -/
abbrev Passage := Nat → List Item → Nat → Prop

/-- `n` iterations lead from a start to a stop one after another, and their items are concatenated;
each of them after the first `free` ones takes a token. -/
inductive Iterations (step : Passage) : Nat → Nat → Passage
  /-- No iteration stays where it is. -/
  | none (free start : Nat) : Iterations step free 0 start [] start
  /-- An iteration that is free or takes a token, and the ones after it. -/
  | more {free n start middle stop : Nat} {first others : List Item}
      (iteration : step start first middle) (moves : 0 < free ∨ start < middle)
      (later : Iterations step (free - 1) n middle others stop) :
      Iterations step free (n + 1) start (first ++ others) stop

namespace Grammar

/-- The derivations of the next iteration at a position; none at the greatest count. -/
def stepsAt (inner : Grammar) (max : Option Nat) (tokens : List Token) (count position : Nat) :
    List Derivation :=
  if ∀ most ∈ max, count < most then (inner.derivationsFrom tokens position).toList else []

variable {inner : Grammar} {min : Nat} {max : Option Nat} {tokens : List Token}

/-- The next iterations are tried below the greatest count. -/
theorem mem_stepsAt {count position : Nat} {step : Derivation} :
    step ∈ inner.stepsAt max tokens count position ↔
      (∀ most ∈ max, count < most) ∧ step ∈ (inner.derivationsFrom tokens position).toList := by
  unfold stepsAt
  split
  next h => exact (and_iff_right h).symm
  next h => exact iff_of_false List.not_mem_nil (fun hs => h hs.1)

/-- The derivations of a repeated grammar that has `count` iterations behind it at a position: for
each next iteration, unless it takes nothing although the least count is met, all derivations from
its stop with its items in front; then the one that ends here. -/
def iterated (inner : Grammar) (min : Nat) (max : Option Nat) (tokens : List Token)
    (count position : Nat) : List Derivation :=
  ((inner.stepsAt max tokens count position).attach.flatMap fun ⟨step, _⟩ =>
    if min ≤ count ∧ step.stop = position then []
    else (iterated inner min max tokens (count + 1) step.stop).map
      (Derivation.after step.items)) ++
  if min ≤ count then [⟨[], position⟩] else []
termination_by (min - count, tokens.length - position)
decreasing_by
  rename_i hstep hpass
  have hbounds := bounds_of_mem_derivationsFrom (mem_stepsAt.mp hstep).2
  by_cases hc : count < min
  · exact Prod.Lex.left _ _ (by omega)
  · rw [show min - (count + 1) = min - count by omega]
    exact Prod.Lex.right _ (by omega)

/-- The recursion, without the note that each iteration is one of the list. -/
theorem iterated_eq (count position : Nat) :
    inner.iterated min max tokens count position =
      ((inner.stepsAt max tokens count position).flatMap fun step =>
        if min ≤ count ∧ step.stop = position then []
        else (inner.iterated min max tokens (count + 1) step.stop).map
          (Derivation.after step.items)) ++
      if min ≤ count then [⟨[], position⟩] else [] := by
  rw [iterated]
  simp only [List.flatMap_subtype, List.unattach_attach]

/-- The next iterations of the search, placed at its position. -/
theorem map_place_stepsFrom (inner : Grammar) (min : Nat) (max : Option Nat) (tokens : List Token)
    (count position : Nat) :
    ((Repetition.mk inner.read min max).stepsFrom count (tokens.drop position)).toList.map
        (Reading.place position (tokens.drop position).length) =
      inner.stepsAt max tokens count position := by
  rw [stepsAt, toList_derivationsFrom, Repetition.stepsFrom]
  cases max with
  | none => simp
  | some most =>
    by_cases hc : most ≤ count
    · simp [hc, Nat.not_lt.mpr hc]
    · simp [hc, Nat.lt_of_not_le hc]

/-- The readings from a level of the search, placed at its position. -/
theorem map_place_unrolled (count position : Nat) :
    ((Repetition.mk inner.read min max).unrolled count (tokens.drop position)).map
        (Reading.place position (tokens.drop position).length) =
      inner.iterated min max tokens count position := by
  induction count, position using iterated.induct inner min max tokens with
  | case1 count position ih =>
    have hsuffix := inner.rest_suffix_of_mem_read
    have hsteps := map_place_stepsFrom inner min max tokens count position
    rw [Repetition.unrolled_eq, iterated_eq, ← hsteps, List.map_append, List.map_flatMap,
      List.flatMap_map]
    congr 1
    · apply List.flatMap_congr
      intro reading hr
      have hrest := Repetition.rest_suffix_of_mem_stepsFrom _ hsuffix count _ reading hr
      have hlength := hrest.length_le
      have hfollows : (Repetition.mk inner.read min max).Follows count (tokens.drop position)
          reading ↔ ¬(min ≤ count ∧
            (reading.place position (tokens.drop position).length).stop = position) := by
        simp only [Repetition.Follows, Reading.place]
        omega
      by_cases hf : (Repetition.mk inner.read min max).Follows count (tokens.drop position) reading
      · have hstep := List.mem_map_of_mem
          (f := Reading.place position (tokens.drop position).length) hr
        rw [hsteps] at hstep
        have hlater := Repetition.rest_suffix_of_mem_unrolled ⟨inner.read, min, max⟩ hsuffix
          (count + 1) reading.rest
        have hnext := ih _ hstep (hfollows.mp hf)
        rw [Reading.drop_stop_place hrest] at hnext
        rw [Repetition.through, if_pos hf, if_neg (hfollows.mp hf),
          Reading.map_place_after hrest hlater, hnext]
        rfl
      · rw [Repetition.through, if_neg hf, if_pos (not_not.mp (mt hfollows.mpr hf))]
        rfl
    · unfold Repetition.ending
      split
      · simp [Reading.empty, Reading.place]
      · rfl

/-- The readings of the search from its first frame, placed at its position. -/
theorem map_place_enumerate (start : Nat) :
    ((Repetition.mk inner.read min max).enumerate (tokens.drop start)).toList.map
        (Reading.place start (tokens.drop start).length) =
      inner.iterated min max tokens 0 start := by
  rw [Repetition.toList_enumerate, map_place_unrolled]

/-- Matching a repetition gives the derivations that the recursion lists, each as often as it lists
it and in the same order, for every inner grammar, all bounds and every start. Both sides ask the same
derivations of the inner grammar, also behind the end of the message, where no search begins. -/
theorem toList_derivationsFrom_repetition (inner : Grammar) (min : UInt64) (max : Option UInt64)
    (tokens : List Token) (start : Nat) :
    ((repetition inner min max).derivationsFrom tokens start).toList =
      inner.iterated min.toNat (max.map UInt64.toNat) tokens 0 start := by
  rw [toList_derivationsFrom, read, map_place_enumerate]

/-- The derivations of a grammar as a relation. -/
def Yields (grammar : Grammar) (tokens : List Token) : Passage := fun start items stop =>
  ⟨items, stop⟩ ∈ (grammar.derivationsFrom tokens start).toList

/-- The recursion lists the chains of iterations that meet both bounds, of which those after the
least count take a token. -/
theorem mem_iterated_iff {inner : Grammar} {min : Nat} {max : Option Nat} {tokens : List Token}
    {count position : Nat} {items : List Item} {stop : Nat} :
    ⟨items, stop⟩ ∈ inner.iterated min max tokens count position ↔
      ∃ n, min ≤ count + n ∧ (∀ most ∈ max, n ≤ most - count) ∧
        Iterations (inner.Yields tokens) (min - count) n position items stop := by
  induction count, position using iterated.induct inner min max tokens generalizing items with
  | case1 count position ih =>
    rw [iterated_eq, List.mem_append, List.mem_flatMap]
    constructor
    · intro hmem
      rcases hmem with ⟨step, hs, hfound⟩ | hend
      · obtain ⟨hmost, hyields⟩ := mem_stepsAt.mp hs
        split at hfound
        next => exact absurd hfound List.not_mem_nil
        next hpass =>
          obtain ⟨later, hlater, heq⟩ := List.mem_map.mp hfound
          cases heq
          obtain ⟨n, hleast, hgreatest, hrun⟩ := (ih step hs hpass).mp hlater
          have hbounds := bounds_of_mem_derivationsFrom hyields
          have hmoves : 0 < min - count ∨ position < step.stop := by omega
          have hfits : ∀ most ∈ max, n + 1 ≤ most - count := by
            intro most hm
            have hlt := hmost most hm
            have hle := hgreatest most hm
            omega
          rw [Nat.sub_add_eq] at hrun
          exact ⟨n + 1, by omega, hfits, .more hyields hmoves hrun⟩
      · split at hend
        next hleast =>
          cases List.mem_singleton.mp hend
          exact ⟨0, hleast, fun _ _ => Nat.zero_le _, .none _ _⟩
        next => exact absurd hend List.not_mem_nil
    · intro hchain
      obtain ⟨n, hleast, hgreatest, hrun⟩ := hchain
      cases hrun with
      | none =>
        right
        rw [if_pos (show min ≤ count from hleast)]
        exact List.mem_singleton_self _
      | @more _ n _ middle _ first others hyields hmoves hlater =>
        left
        have hmost : ∀ most ∈ max, count < most := by
          intro most hm
          have hle := hgreatest most hm
          omega
        have hfits : ∀ most ∈ max, n ≤ most - (count + 1) := by
          intro most hm
          have hle := hgreatest most hm
          omega
        have hs : (⟨first, middle⟩ : Derivation) ∈ inner.stepsAt max tokens count position :=
          mem_stepsAt.mpr ⟨hmost, hyields⟩
        have hpass : ¬(min ≤ count ∧ middle = position) := by omega
        rw [← Nat.sub_add_eq] at hlater
        have hothers := (ih _ hs hpass).mpr ⟨n, by omega, hfits, hlater⟩
        refine ⟨_, hs, ?_⟩
        rw [if_neg hpass]
        exact List.mem_map_of_mem (f := Derivation.after first) hothers

/-- A repetition yields the chains of iterations that meet both bounds, of which those after the
least count take a token. -/
theorem yields_repetition_iff {inner : Grammar} {min : UInt64} {max : Option UInt64}
    {tokens : List Token} {start : Nat} {items : List Item} {stop : Nat} :
    (repetition inner min max).Yields tokens start items stop ↔
      ∃ n, min.toNat ≤ n ∧ (∀ most ∈ max, n ≤ most.toNat) ∧
        Iterations (inner.Yields tokens) min.toNat n start items stop := by
  rw [Yields, toList_derivationsFrom, read, map_place_enumerate, mem_iterated_iff]
  simp

end Grammar

end MessageGrammar
