import MessageGrammar.Proofs.Equivalence
import MessageGrammar.Proofs.Iteration

/-!
# Repetitions by their counts

A fixed number of iterations is a sequence of as many copies. Up to its least count a repetition
follows every iteration, also one that takes no token, so that its beginning is such a sequence; from
there on it behaves as a repetition without a least count that has this many iterations less to go.
So every repetition is a fixed number of iterations with a free repetition behind them.
-/

namespace MessageGrammar

namespace Grammar

variable {inner : Grammar} {min : Nat} {max : Option Nat} {tokens : List Token}

/-- Below the least count no iteration is passed over, and none of them ends the repetition: the
iterations up to that count are a sequence of copies. The induction is on the iterations left to the
least count. -/
theorem iterated_eq_replicate {count left : Nat} (hleast : count + left = min)
    (hmost : ∀ most ∈ max, min ≤ most) (position : Nat) :
    inner.iterated min max tokens count position =
      ((seq (List.replicate left inner)).derivationsFrom tokens position).toList.flatMap
        fun found => (inner.iterated min max tokens min found.stop).map
          (Derivation.after found.items) := by
  induction left generalizing count position with
  | zero =>
    obtain rfl : count = min := hleast
    rw [List.replicate_zero, toList_derivationsFrom_seq_nil]
    simp [Derivation.after_nil]
  | succ left ih =>
    have hbelow : ¬min ≤ count := by omega
    have hsteps : inner.stepsAt max tokens count position =
        (inner.derivationsFrom tokens position).toList := by
      apply if_pos
      intro most hm
      have hle := hmost most hm
      omega
    have hnext : count + 1 + left = min := by omega
    rw [iterated_eq, hsteps, if_neg hbelow, List.append_nil, List.replicate_succ,
      toList_derivationsFrom_seq_cons, List.flatMap_assoc]
    apply List.flatMap_congr
    intro step _
    -- a step that takes no token does not end the repetition here, since the count is too low
    rw [if_neg (fun h => hbelow h.1), ih hnext, List.map_flatMap, List.flatMap_map]
    apply List.flatMap_congr
    intro found _
    rw [List.map_map]
    apply List.map_congr_left
    intro later _
    exact later.after_after step.items found.items

/-- From the least count on, a repetition is one without a least count, with a greatest count lower
by as much. -/
theorem iterated_add (count position : Nat) :
    inner.iterated min max tokens (min + count) position =
      inner.iterated 0 (max.map (· - min)) tokens count position := by
  induction count, position using iterated.induct inner 0 (max.map (· - min)) tokens with
  | case1 count position ih =>
    have hfits : (∀ most ∈ max, min + count < most) ↔
        ∀ most ∈ max.map (· - min), count < most := by
      cases max with
      | none => simp
      | some most => simp [Nat.lt_sub_iff_add_lt']
    have hsteps : inner.stepsAt max tokens (min + count) position =
        inner.stepsAt (max.map (· - min)) tokens count position := if_congr hfits rfl rfl
    rw [iterated_eq, iterated_eq count, hsteps]
    -- the least count is met on both sides, so that they go on, stop and end by the same rules
    congr 1
    · apply List.flatMap_congr
      intro step hstep
      by_cases hstays : step.stop = position
      · rw [if_pos ⟨Nat.le_add_right min count, hstays⟩, if_pos ⟨Nat.zero_le count, hstays⟩]
      · have hlater := ih step hstep (fun h => hstays h.2)
        rw [if_neg (fun h => hstays h.2), if_neg (fun h => hstays h.2), ← hlater]
        rfl
    · rw [if_pos (Nat.le_add_right min count), if_pos (Nat.zero_le count)]

/-- At the least count, which is the greatest one as well, a repetition is at its end. -/
theorem iterated_of_full (position : Nat) :
    inner.iterated min (some min) tokens min position = [⟨[], position⟩] := by
  rw [iterated_eq]
  simp [stepsAt]

/-- A fixed number of iterations is a sequence of as many copies. -/
theorem equivalent_times (grammar : Grammar) (count : UInt64) :
    Equivalent (grammar.times count) (seq (List.replicate count.toNat grammar)) := by
  intro tokens start
  have htimes : ((grammar.times count).derivationsFrom tokens start).toList =
      grammar.iterated count.toNat (some count.toNat) tokens 0 start :=
    toList_derivationsFrom_repetition grammar count (some count) tokens start
  rw [htimes, iterated_eq_replicate (Nat.zero_add _) (by simp)]
  simp [iterated_of_full, Derivation.after]

/-- A repetition is its least number of iterations with a repetition of the others behind them. -/
theorem equivalent_repetition (grammar : Grammar) {min : UInt64} {max : Option UInt64}
    (h : ∀ most ∈ max, min ≤ most) :
    Equivalent (repetition grammar min max)
      (seq [grammar.times min, repetition grammar 0 (max.map (· - min))]) := by
  intro tokens start
  have hmost : ∀ most ∈ max.map UInt64.toNat, min.toNat ≤ most := by
    intro most hm
    obtain ⟨word, hword, rfl⟩ := Option.map_eq_some_iff.mp hm
    exact UInt64.le_iff_toNat_le.mp (h word hword)
  have hless : (max.map (· - min)).map UInt64.toNat =
      (max.map UInt64.toNat).map (· - min.toNat) := by
    cases max with
    | none => rfl
    | some most => simp [UInt64.toNat_sub_of_le most min (h most rfl)]
  rw [toList_derivationsFrom_repetition, iterated_eq_replicate (Nat.zero_add _) hmost,
    toList_derivationsFrom_seq_cons, equivalent_times]
  apply List.flatMap_congr
  intro found _
  rw [equivalent_seq_singleton, toList_derivationsFrom_repetition, hless, UInt64.toNat_zero,
    ← iterated_add, Nat.add_zero]

/-- Repetitions unroll without any change in the derivations or their order, also where the grammar
takes no token: a fixed number of iterations into as many copies, and every repetition whose greatest
count, if there is one, is not below the least into its least number of iterations and a repetition
of the others. -/
theorem repetition_unrolls (grammar : Grammar) :
    (∀ count : UInt64, Equivalent (grammar.times count)
      (seq (List.replicate count.toNat grammar))) ∧
    ∀ (min : UInt64) (max : Option UInt64), (∀ most ∈ max, min ≤ most) →
      Equivalent (repetition grammar min max)
        (seq [grammar.times min, repetition grammar 0 (max.map (· - min))]) :=
  ⟨equivalent_times grammar, fun _ _ h => equivalent_repetition grammar h⟩

/-- Two or three words, each of which may be left out, are two of them and perhaps a third. -/
theorem optional_words_unroll :
    (∀ most ∈ some (3 : UInt64), 2 ≤ most) ∧
      Equivalent (repetition word.optional 2 (some 3))
        (seq [word.optional.times 2, repetition word.optional 0 (some 1)]) := by
  have hmost : ∀ most ∈ some (3 : UInt64), 2 ≤ most := by
    intro most hm
    obtain rfl := Option.some.inj hm
    decide
  exact ⟨hmost, (repetition_unrolls word.optional).2 2 (some 3) hmost⟩

end Grammar

end MessageGrammar
