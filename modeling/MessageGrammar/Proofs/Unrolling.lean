import MessageGrammar.Grammar.Repetition

/-!
# Repetition without a stack

The search of a repetition keeps its own stack of frames, each with iterations that were not tried
yet. Here the same readings are listed by plain recursion on the levels, and a stack of frames is
shown to stand for a list of readings that each round only shortens by what it gives out.
-/

namespace MessageGrammar.Repetition

variable (repetition : Repetition)

/-- The readings from a level: for each iteration that is followed, the readings from the next
level behind its items, and at last the end of the repetition itself. -/
def unrolled (count : Nat) (rest : List Token) : List Reading :=
  ((repetition.stepsFrom count rest).toList.flatMap fun reading =>
    if repetition.Follows count rest reading then
      (unrolled (count + 1) reading.rest).map (Reading.after reading.items)
    else []) ++
  if repetition.min ≤ count then [.empty rest] else []
termination_by (repetition.min - count, rest.length)
decreasing_by
  exact repetition.decreases_of_follows ‹_›

/-- The readings through an iteration from a level; none if the search passes it over. -/
def through (count : Nat) (rest : List Token) (reading : Reading) : List Reading :=
  if repetition.Follows count rest reading then
    (repetition.unrolled (count + 1) reading.rest).map (Reading.after reading.items)
  else []

/-- The reading that ends the repetition at a level, if the least count is reached. -/
def ending (count : Nat) (rest : List Token) : List Reading :=
  if repetition.min ≤ count then [.empty rest] else []

/-- The recursion, with the readings through one iteration under their name. -/
theorem unrolled_eq (count : Nat) (rest : List Token) :
    repetition.unrolled count rest =
      (repetition.stepsFrom count rest).toList.flatMap (repetition.through count rest) ++
        repetition.ending count rest := by
  rw [unrolled]
  rfl

/-- The readings that a frame still leads to, without the items up to it. -/
def Frame.left (frame : Frame) : List Reading :=
  (frame.steps ()).toList.flatMap (repetition.through frame.count frame.rest) ++
    repetition.ending frame.count frame.rest

/-- A fresh frame leads to all readings from its level. -/
theorem left_frame (count : Nat) (rest : List Token) (items : List Item) :
    Frame.left repetition (repetition.frame count rest items) = repetition.unrolled count rest :=
  (repetition.unrolled_eq count rest).symm

/-- The items of all iterations of a stack of frames, the lowest first. -/
def stackItems (frames : List Frame) : List Item :=
  (frames.reverse.map Frame.items).flatten

/-- The items of the top frame come last. -/
theorem stackItems_cons (top : Frame) (below : List Frame) :
    stackItems (top :: below) = stackItems below ++ top.items := by
  simp [stackItems]

/-- The readings that a stack of frames stands for: those of the top frame, then those of the frames
below it. -/
def pending : List Frame → List Reading
  | [] => []
  | top :: below =>
    (Frame.left repetition top).map (Reading.after (stackItems (top :: below))) ++ pending below

/-- One round gives out the first pending reading or none, and keeps the others pending. -/
theorem pending_round (top : Frame) (below : List Frame) :
    repetition.pending (top :: below) =
      (repetition.round top below).1.toList ++
        repetition.pending (repetition.round top below).2 := by
  unfold round
  split
  next reading more h =>
    have hleft : Frame.left repetition top =
        repetition.through top.count top.rest reading ++
          Frame.left repetition { top with steps := more } := by
      simp [Frame.left, h]
    dsimp only
    split
    next hf =>
      have hthrough : (repetition.through top.count top.rest reading).map
          (Reading.after (stackItems (top :: below))) =
          (repetition.unrolled (top.count + 1) reading.rest).map
            (Reading.after (stackItems (top :: below) ++ reading.items)) := by
        simp [through, hf, Reading.after_after]
      simp only [pending, hleft, List.map_append, hthrough, left_frame, Option.toList_none,
        List.nil_append]
      simp only [stackItems_cons, frame, List.append_assoc]
    next hf =>
      have hthrough : repetition.through top.count top.rest reading = [] := if_neg hf
      simp only [pending, hleft, hthrough, List.nil_append, Option.toList_none]
      simp only [stackItems_cons]
  next h =>
    have hleft : Frame.left repetition top = repetition.ending top.count top.rest := by
      simp [Frame.left, h]
    by_cases hm : repetition.min ≤ top.count
    · have hfinish : (Reading.empty top.rest).after (stackItems (top :: below)) =
          finish top below := by
        simp [Reading.after, Reading.empty, finish, stackItems]
      have hending : repetition.ending top.count top.rest = [.empty top.rest] := if_pos hm
      rw [pending, hleft, hending, List.map_singleton, hfinish, if_pos hm]
      rfl
    · have hending : repetition.ending top.count top.rest = [] := if_neg hm
      rw [pending, hleft, hending, if_neg hm]
      rfl

/-- A run of the search gives out all pending readings in order. -/
theorem toList_readings (frames : List Frame) :
    (repetition.readings frames).toList = repetition.pending frames := by
  fun_induction readings repetition frames with
  | case1 => rfl
  | case2 top below frames h ih =>
    rw [pending_round, h, ih]
    rfl
  | case3 top below reading frames h ih =>
    rw [pending_round, h, Enumeration.toList_cons, ih]
    rfl

/-- The readings of a repetition are those listed by plain recursion. -/
theorem toList_enumerate (tokens : List Token) :
    (repetition.enumerate tokens).toList = repetition.unrolled 0 tokens := by
  have hitems : stackItems [repetition.frame 0 tokens []] = [] := rfl
  have hafter : Reading.after [] = id := rfl
  rw [enumerate, toList_readings, pending, pending, left_frame, hitems, hafter, List.map_id,
    List.append_nil]

end MessageGrammar.Repetition
