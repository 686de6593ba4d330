import Mathlib.Data.List.Chain
import MessageGrammar.Proofs.Iteration

/-!
# Runs of the search

The search of a repetition is taken round by round. Each call for the next reading takes some rounds
and leaves a stack of frames behind, from every stack that occurs; and after every round, the stack
is the path of iterations from the beginning to the level looked at: each frame is one iteration
further than the one below it, by a reading that the one below it allows, and what it has not tried
yet is an end of its own iterations. This is what one round preserves, and hence a run.
-/

namespace MessageGrammar.Repetition

variable (repetition : Repetition)

/-- The given number of rounds: the readings that they give out, and the stack after them. Nothing
happens once the stack is empty. -/
def run : Nat → List Frame → List Reading × List Frame
  | 0, frames => ([], frames)
  | _ + 1, [] => ([], [])
  | n + 1, top :: below =>
    let reached := repetition.round top below
    let later := run n reached.2
    (reached.1.toList ++ later.1, later.2)

/-- One call for the next reading, within the given number of rounds: rounds are done until one of
them gives out a reading or the stack is empty. -/
def next? : Nat → List Frame → Option (Option Reading × List Frame)
  | _, [] => some (none, [])
  | 0, _ :: _ => none
  | n + 1, top :: below =>
    match repetition.round top below with
    | (some reading, frames) => some (some reading, frames)
    | (none, frames) => next? n frames

/-- No rounds from an empty stack. -/
theorem run_nil (n : Nat) : repetition.run n [] = ([], []) := by
  cases n <;> rfl

/-- Rounds after rounds. -/
theorem run_add (n k : Nat) (frames : List Frame) :
    (repetition.run (n + k) frames).2 = (repetition.run k (repetition.run n frames).2).2 := by
  induction n generalizing frames with
  | zero => rw [Nat.zero_add, run]
  | succ n ih =>
    rw [Nat.add_right_comm]
    cases frames with
    | nil => rw [run_nil, run_nil, run_nil]
    | cons top below => exact ih _

/-- Rounds never add to what remains to be done. -/
theorem remaining_run_le (n : Nat) (frames : List Frame) :
    repetition.remaining (repetition.run n frames).2 ≤ repetition.remaining frames := by
  induction n generalizing frames with
  | zero => exact Nat.le_refl _
  | succ n ih =>
    cases frames with
    | nil => exact Nat.le_refl _
    | cons top below =>
      have hround := repetition.remaining_round top below
      have hlater := ih (repetition.round top below).2
      exact Nat.le_trans hlater (Nat.le_of_lt hround)

/-- From every stack, enough rounds give out all pending readings and empty the stack. -/
theorem exists_run_eq_pending (frames : List Frame) :
    ∃ n ≤ repetition.remaining frames, repetition.run n frames = (repetition.pending frames, []) := by
  induction frames using readings.induct repetition with
  | case1 => exact ⟨0, Nat.zero_le _, rfl⟩
  | case2 top below later h ih | case3 top below reading later h ih =>
    have hround := repetition.remaining_round top below
    rw [h] at hround
    obtain ⟨n, hn, hrun⟩ := ih
    refine ⟨n + 1, Nat.succ_le_of_lt (Nat.lt_of_le_of_lt hn hround), ?_⟩
    rw [run, h, hrun, repetition.pending_round, h]

/-- From every stack, a call for the next reading is done after a bounded number of rounds. It gives
the reading that these rounds give out, if any, and leaves their stack. -/
theorem exists_next?_eq_some (frames : List Frame) :
    ∃ n ≤ repetition.remaining frames, ∃ reading,
      repetition.next? n frames = some (reading, (repetition.run n frames).2) ∧
        (repetition.run n frames).1 = reading.toList := by
  induction frames using readings.induct repetition with
  | case1 => exact ⟨0, Nat.zero_le _, none, rfl, rfl⟩
  | case2 top below later h ih =>
    have hround := repetition.remaining_round top below
    rw [h] at hround
    obtain ⟨n, hn, reading, hnext, hrun⟩ := ih
    refine ⟨n + 1, Nat.succ_le_of_lt (Nat.lt_of_le_of_lt hn hround), reading, ?_, ?_⟩
    · rw [next?, run, h]
      exact hnext
    · rw [run, h]
      exact hrun
  | case3 top below reading later h ih =>
    have hround := repetition.remaining_round top below
    refine ⟨1, Nat.succ_le_of_lt (Nat.zero_lt_of_lt hround), some reading, ?_, ?_⟩
    · rw [next?, run, h]
      rfl
    · rw [run, h]
      rfl

/-- What a frame has not tried yet is an end of the iterations from its level. -/
def Frame.Unread (frame : Frame) : Prop :=
  (frame.steps ()).toList <:+ (repetition.stepsFrom frame.count frame.rest).toList

/-- A stack of the search of some tokens. -/
inductive Stacked (tokens : List Token) : List Frame → Prop
  /-- The search is done. -/
  | empty : Stacked tokens []
  /-- The lowest frame is at the beginning. -/
  | bottom {frame : Frame} (count : frame.count = 0) (rest : frame.rest = tokens)
      (unread : Frame.Unread repetition frame) : Stacked tokens [frame]
  /-- A frame is one followed iteration further than the one below it. -/
  | above {top lower : Frame} {below : List Frame} (stacked : Stacked tokens (lower :: below))
      (count : top.count = lower.count + 1)
      (step : ⟨top.items, top.rest⟩ ∈ (repetition.stepsFrom lower.count lower.rest).toList)
      (follows : repetition.Follows lower.count lower.rest ⟨top.items, top.rest⟩)
      (unread : Frame.Unread repetition top) : Stacked tokens (top :: lower :: below)

namespace Stacked

variable {repetition} {tokens : List Token} {frames : List Frame}

/-- The stack that the search begins with. -/
theorem fresh (tokens : List Token) (items : List Item) :
    repetition.Stacked tokens [repetition.frame 0 tokens items] :=
  .bottom rfl rfl (List.suffix_refl _)

section Round

variable {top : Frame} {below : List Frame} (h : repetition.Stacked tokens (top :: below))

include h

/-- The top frame has tried only its own iterations. -/
theorem unread : Frame.Unread repetition top := by
  cases h with
  | bottom _ _ hunread => exact hunread
  | above _ _ _ _ hunread => exact hunread

/-- A stack without its top frame. -/
theorem tail : repetition.Stacked tokens below := by
  cases h with
  | bottom => exact .empty
  | above hstacked => exact hstacked

/-- The top frame may try any of what it has not tried yet. -/
theorem advance {steps : Unit → Enumeration Reading}
    (hsteps : (steps ()).toList <:+ (top.steps ()).toList) :
    repetition.Stacked tokens ({ top with steps := steps } :: below) := by
  have hunread := hsteps.trans h.unread
  cases h with
  | bottom hcount hrest => exact .bottom hcount hrest hunread
  | above hstacked hcount hstep hfollows => exact .above hstacked hcount hstep hfollows hunread

/-- What one round preserves. -/
theorem round : repetition.Stacked tokens (repetition.round top below).2 := by
  unfold Repetition.round
  split
  next reading more hsteps =>
    have hmore : (more ()).toList <:+ (top.steps ()).toList := by
      rw [hsteps, Enumeration.toList_cons]
      exact List.suffix_cons reading _
    have hreading : reading ∈ (top.steps ()).toList := by
      rw [hsteps]
      exact List.mem_cons_self
    have hlater := h.advance hmore
    have hstep := h.unread.subset hreading
    dsimp only
    split
    next hfollows => exact .above hlater rfl hstep hfollows (List.suffix_refl _)
    next => exact hlater
  next => exact h.tail

end Round

/-- What a run preserves. -/
theorem run (h : repetition.Stacked tokens frames) (n : Nat) :
    repetition.Stacked tokens (repetition.run n frames).2 := by
  induction n generalizing frames with
  | zero => exact h
  | succ n ih =>
    cases frames with
    | nil => exact h
    | cons top below => exact ih h.round

/-- The frames are counted from the lowest one. -/
theorem map_count (h : repetition.Stacked tokens frames) :
    frames.reverse.map Frame.count = List.range frames.length := by
  rw [List.map_reverse, List.reverse_eq_iff]
  induction h with
  | empty => rfl
  | bottom hcount => simp [hcount]
  | @above top lower below _ hcount _ _ _ ih =>
    have hlower := ih
    rw [List.map_cons, List.length_cons, List.range_succ, List.reverse_concat,
      List.cons.injEq] at hlower
    have htop : top.count = (lower :: below).length := by
      rw [hcount, hlower.1, List.length_cons]
    rw [List.map_cons, ih, htop, ← List.reverse_concat, ← List.range_succ]
    rfl

/-- No frame is above the greatest count, since no iterations are tried there. -/
theorem count_le_max (h : repetition.Stacked tokens frames) :
    ∀ frame ∈ frames, ∀ most ∈ repetition.max, frame.count ≤ most := by
  induction h with
  | empty => exact fun frame hframe => absurd hframe List.not_mem_nil
  | bottom hcount =>
    intro frame hframe most _
    rw [List.mem_singleton.mp hframe, hcount]
    exact Nat.zero_le most
  | @above top lower below _ hcount hstep _ _ ih =>
    rw [List.forall_mem_cons]
    refine ⟨?_, ih⟩
    intro most hmost
    rw [stepsFrom, Option.mem_def.mp hmost] at hstep
    dsimp only at hstep
    split at hstep
    next => exact absurd hstep List.not_mem_nil
    next hlt => omega

/-- The lowest frame is at the beginning. -/
theorem rest_getLast? (h : repetition.Stacked tokens frames) :
    ∀ frame ∈ frames.getLast?, frame.rest = tokens := by
  induction h with
  | empty => exact fun frame hframe => absurd hframe (by simp)
  | bottom _ hrest =>
    intro frame hframe
    obtain rfl : _ = frame := by simpa using hframe
    exact hrest
  | above _ _ _ _ _ ih => exact ih

/-- Each frame is reached by an iteration from the one below it. -/
theorem isChain (h : repetition.Stacked tokens frames) :
    frames.IsChain fun upper lower =>
      ⟨upper.items, upper.rest⟩ ∈ (repetition.stepsFrom lower.count lower.rest).toList := by
  induction h with
  | empty => exact .nil
  | bottom => exact .singleton _
  | above _ _ hstep _ _ ih => exact .cons_cons hstep ih

variable (hsuffix : ∀ tokens, ∀ reading ∈ (repetition.step tokens).toList,
  reading.rest <:+ tokens)

include hsuffix

/-- Each frame has an end of the tokens left. -/
theorem rest_suffix (h : repetition.Stacked tokens frames) :
    ∀ frame ∈ frames, frame.rest <:+ tokens := by
  induction h with
  | empty => exact fun frame hframe => absurd hframe List.not_mem_nil
  | bottom _ hrest =>
    intro frame hframe
    have hall : frame.rest = tokens := List.mem_singleton.mp hframe ▸ hrest
    exact hall ▸ List.suffix_refl frame.rest
  | above _ _ hstep _ _ ih =>
    have htop := repetition.rest_suffix_of_mem_stepsFrom hsuffix _ _ _ hstep
    have hlower := ih _ List.mem_cons_self
    exact List.forall_mem_cons.mpr ⟨htop.trans hlower, ih⟩

/-- Iterations above the least count take tokens. -/
theorem count_le (h : repetition.Stacked tokens frames) :
    ∀ frame ∈ frames, frame.count ≤ repetition.min + (tokens.length - frame.rest.length) := by
  induction h with
  | empty => exact fun frame hframe => absurd hframe List.not_mem_nil
  | bottom hcount =>
    intro frame hframe
    rw [List.mem_singleton.mp hframe, hcount]
    exact Nat.zero_le _
  | @above top lower below hstacked hcount hstep hfollows _ ih =>
    have hlower := ih lower List.mem_cons_self
    have hrest := (hstacked.rest_suffix hsuffix lower List.mem_cons_self).length_le
    have htop := (repetition.rest_suffix_of_mem_stepsFrom hsuffix _ _ _ hstep).length_le
    have hspent : lower.count < repetition.min ∨ top.rest.length < lower.rest.length := hfollows
    dsimp only at htop
    exact List.forall_mem_cons.mpr ⟨by omega, ih⟩

end Stacked

/-- Where the tokens left at a frame begin in a message. -/
def Frame.position (tokens : List Token) (frame : Frame) : Nat :=
  tokens.length - frame.rest.length

end MessageGrammar.Repetition

namespace MessageGrammar.Grammar

open Repetition (Frame)

variable {inner : Grammar} {min : Nat} {max : Option Nat} {tokens : List Token} {start : Nat}
  {frames : List Frame}

/-- The frames of a repetition from a start, the top frame first, as a path through the message. -/
structure FrameChain (inner : Grammar) (min : Nat) (max : Option Nat) (tokens : List Token)
    (start : Nat) (frames : List Frame) : Prop where
  /-- The lowest frame has count zero, and each frame has one more than the one below it. -/
  counts : frames.reverse.map Frame.count = List.range frames.length
  /-- Each frame looks at the tokens from its position on. -/
  places : ∀ frame ∈ frames, start ≤ frame.position tokens ∧ frame.position tokens ≤ tokens.length ∧
    frame.rest = tokens.drop (frame.position tokens)
  /-- The lowest frame is at the start. -/
  bottom : ∀ frame ∈ frames.getLast?, frame.position tokens = start
  /-- Each frame is where a derivation of the inner grammar from the frame below it stops. -/
  steps : frames.IsChain fun upper lower =>
    inner.Yields tokens (lower.position tokens) upper.items (upper.position tokens)
  /-- No frame is above the greatest count. -/
  greatest : ∀ frame ∈ frames, ∀ most ∈ max, frame.count ≤ most
  /-- What a frame has above the least count, it has taken tokens for. -/
  spent : ∀ frame ∈ frames, frame.count ≤ min + (frame.position tokens - start)

/-- An end of a message begins where its length says. -/
theorem place_of_suffix {rest : List Token} (hs : start ≤ tokens.length)
    (h : rest <:+ tokens.drop start) :
    start ≤ tokens.length - rest.length ∧ rest = tokens.drop (tokens.length - rest.length) := by
  have hlength := h.length_le
  have hdrop := List.suffix_iff_eq_drop.mp (h.trans (List.drop_suffix start tokens))
  rw [List.length_drop] at hlength
  exact ⟨by omega, hdrop⟩

/-- An iteration that is tried at a position is a derivation from there. -/
theorem yields_of_mem_stepsFrom {count position : Nat} {reading : Reading}
    (hle : position ≤ tokens.length) (h : reading ∈ ((Repetition.mk inner.read min max).stepsFrom count
      (tokens.drop position)).toList) :
    inner.Yields tokens position reading.items (tokens.length - reading.rest.length) := by
  have hrest := Repetition.rest_suffix_of_mem_stepsFrom _ inner.rest_suffix_of_mem_read _ _ _ h
  have hlength := hrest.length_le
  have hplaced := List.mem_map_of_mem (f := Reading.place position (tokens.drop position).length) h
  rw [map_place_stepsFrom] at hplaced
  have hstop : position + ((tokens.drop position).length - reading.rest.length) =
      tokens.length - reading.rest.length := by
    rw [List.length_drop] at hlength ⊢
    omega
  rw [← hstop]
  exact (mem_stepsAt.mp hplaced).2

/-- A stack of the search from a start is a path through the message. -/
theorem frameChain_of_stacked (hs : start ≤ tokens.length)
    (h : (Repetition.mk inner.read min max).Stacked (tokens.drop start) frames) :
    FrameChain inner min max tokens start frames := by
  have hsuffix := h.rest_suffix inner.rest_suffix_of_mem_read
  have hplaces : ∀ frame ∈ frames, start ≤ frame.position tokens ∧
      frame.position tokens ≤ tokens.length ∧ frame.rest = tokens.drop (frame.position tokens) := by
    intro frame hframe
    obtain ⟨hle, hdrop⟩ := place_of_suffix hs (hsuffix frame hframe)
    exact ⟨hle, Nat.sub_le _ _, hdrop⟩
  refine ⟨h.map_count, hplaces, ?_, ?_, h.count_le_max, ?_⟩
  · intro frame hframe
    rw [Frame.position, h.rest_getLast? frame hframe, List.length_drop]
    omega
  · apply h.isChain.imp_of_mem_imp
    intro upper lower hupper hlower hstep
    obtain ⟨-, hle, hdrop⟩ := hplaces lower hlower
    rw [hdrop] at hstep
    exact yields_of_mem_stepsFrom hle hstep
  · intro frame hframe
    have hcount := h.count_le inner.rest_suffix_of_mem_read frame hframe
    have hlength := (hsuffix frame hframe).length_le
    rw [List.length_drop] at hcount hlength
    rw [Frame.position]
    dsimp only at hcount
    omega

end MessageGrammar.Grammar
