import MessageGrammar.Grammar.Reading

/-!
# Repetition

A matcher is repeated greedily: every longer repetition through an iteration comes before the one
that stops there. The search keeps one frame per iteration on a stack of its own. An iteration that
takes no token is followed only while the least count is not reached, since it could go on forever.
The measure of the search is the number of rounds it still has to do.
-/

namespace MessageGrammar

/-- A matcher with the least and the greatest number of iterations. -/
structure Repetition where
  /-- The matcher of one iteration. -/
  step : Matcher
  /-- Least number of iterations. -/
  min : Nat
  /-- Greatest number of iterations, if there is one. -/
  max : Option Nat

namespace Repetition

/-- One level of the search. -/
structure Frame where
  /-- Number of iterations up to this level. -/
  count : Nat
  /-- Tokens left at this level. -/
  rest : List Token
  /-- Items of the iteration that led to this level. -/
  items : List Item
  /-- Readings of the next iteration that were not tried yet. -/
  steps : Unit → Enumeration Reading

variable (repetition : Repetition)

/-- Whether the search goes on after an iteration from a level. -/
def Follows (count : Nat) (rest : List Token) (reading : Reading) : Prop :=
  count < repetition.min ∨ reading.rest.length < rest.length

instance (count : Nat) (rest : List Token) (reading : Reading) :
    Decidable (repetition.Follows count rest reading) :=
  inferInstanceAs (Decidable (_ ∨ _))

/-- Each iteration that is followed leaves fewer of the least count to reach, or fewer tokens. -/
theorem decreases_of_follows {count : Nat} {rest : List Token} {reading : Reading}
    (h : repetition.Follows count rest reading) :
    Prod.Lex (· < ·) (· < ·) (repetition.min - (count + 1), reading.rest.length)
      (repetition.min - count, rest.length) := by
  by_cases hc : count < repetition.min
  · exact Prod.Lex.left _ _ (by omega)
  · rw [show repetition.min - (count + 1) = repetition.min - count by omega]
    exact Prod.Lex.right _ (h.resolve_left hc)

/-- The readings of the next iteration from a level; none at the greatest count. -/
def stepsFrom (count : Nat) (rest : List Token) : Enumeration Reading :=
  match repetition.max with
  | some max => if max ≤ count then .nil else repetition.step rest
  | none => repetition.step rest

/-- A level none of whose iterations was tried yet. -/
def frame (count : Nat) (rest : List Token) (items : List Item) : Frame :=
  ⟨count, rest, items, fun _ => repetition.stepsFrom count rest⟩

/-- The sum of some numbers. -/
def total : List Nat → Nat
  | [] => 0
  | n :: others => n + total others

/-- Number of rounds from a fresh level until it is done with. -/
def rounds (count : Nat) (rest : List Token) : Nat :=
  1 + total ((repetition.stepsFrom count rest).toList.map fun reading =>
    if repetition.Follows count rest reading then 1 + rounds (count + 1) reading.rest else 1)
termination_by (repetition.min - count, rest.length)
decreasing_by
  exact repetition.decreases_of_follows ‹_›

/-- Number of rounds until a frame is done with. -/
def Frame.rounds (frame : Frame) : Nat :=
  1 + total ((frame.steps ()).toList.map fun reading =>
    if repetition.Follows frame.count frame.rest reading
    then 1 + repetition.rounds (frame.count + 1) reading.rest else 1)

theorem rounds_frame (count : Nat) (rest : List Token) (items : List Item) :
    Frame.rounds repetition (repetition.frame count rest items) = repetition.rounds count rest := by
  rw [rounds]; rfl

/-- The items of all iterations up to the top frame, with the tokens left there. -/
def finish (top : Frame) (below : List Frame) : Reading :=
  ⟨((top :: below).reverse.map Frame.items).flatten, top.rest⟩

/-- One round of the search: the next iteration from the top frame is followed or passed over; when
there is none, the frame is taken away and gives a reading if the least count is reached. -/
def round (top : Frame) (below : List Frame) : Option Reading × List Frame :=
  match top.steps () with
  | .cons reading more =>
    let top := { top with steps := more }
    if repetition.Follows top.count top.rest reading then
      (none, repetition.frame (top.count + 1) reading.rest reading.items :: top :: below)
    else (none, top :: below)
  | .nil => (if repetition.min ≤ top.count then some (finish top below) else none, below)

/-- Number of rounds until a stack of frames is done with. -/
def remaining (frames : List Frame) : Nat :=
  total (frames.map (Frame.rounds repetition))

theorem remaining_round (top : Frame) (below : List Frame) :
    repetition.remaining (repetition.round top below).2 < repetition.remaining (top :: below) := by
  unfold round
  split
  next reading more h =>
    dsimp only
    split
    next hf =>
      have hr := rounds_frame repetition (top.count + 1) reading.rest reading.items
      simp only [remaining, List.map_cons, total, hr]
      simp only [Frame.rounds, h, Enumeration.toList_cons, List.map_cons, total, hf, if_true]
      omega
    next hf =>
      simp only [remaining, List.map_cons, total]
      simp only [Frame.rounds, h, Enumeration.toList_cons, List.map_cons, total, hf,
        if_false]
      omega
  next h =>
    simp only [remaining, List.map_cons, total]
    simp only [Frame.rounds]
    omega

/-- All readings that a stack of frames still leads to. -/
def readings (frames : List Frame) : Enumeration Reading :=
  match frames with
  | [] => .nil
  | top :: below =>
    match _round : repetition.round top below with
    | (none, frames) => readings frames
    | (some reading, frames) => .cons reading fun _ => readings frames
termination_by repetition.remaining frames
decreasing_by
  all_goals
    have hr := remaining_round repetition top below
    rw [_round] at hr
    exact hr

/-- All readings of the repeated matcher. -/
def enumerate : Matcher := fun tokens =>
  repetition.readings [repetition.frame 0 tokens []]

end Repetition

end MessageGrammar
