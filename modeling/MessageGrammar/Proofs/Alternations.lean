import MessageGrammar.Proofs.OutcomesByPart

/-!
# Outcomes of alternations

An alternation lists the complete derivations of one alternative after another. Its outcome is the
merge of the outcomes of its alternatives, from the first to the last: no derivation of one
alternative has to be compared with a derivation of another one. The merge is stated by kinds of
outcomes and positions of diagnostics alone, without a search that stops early or remembers the
deepest diagnostic so far.
-/

namespace MessageGrammar

namespace Outcome

/-- One outcome out of two: a match on the left, else a match on the right, else of two diagnostics
the one at the greater position, the left one if the positions are equal, else the only diagnostic,
else no match. -/
def merge : Outcome → Outcome → Outcome
  | matched items, _ => .matched items
  | _, matched items => .matched items
  | diagnostic d, diagnostic d' =>
    if d.position < d'.position then .diagnostic d' else .diagnostic d
  | diagnostic d, noMatch => .diagnostic d
  | noMatch, other => other

/-- The better of two outcomes is their merge. -/
theorem orBetter_eq_merge (left right : Outcome) : left.orBetter right = left.merge right := by
  cases left with
  | matched items => rfl
  | noMatch => cases right <;> rfl
  | diagnostic d =>
    cases right with
    | matched items => rfl
    | noMatch => rfl
    | diagnostic d' =>
      rw [orBetter, merge, Diagnostic.deeper]
      by_cases hless : d.position < d'.position
      · rw [if_pos hless, if_neg (Nat.not_le.mpr hless)]
      · rw [if_neg hless, if_pos (Nat.not_lt.mp hless)]

/-- The best of some outcomes merges all of them, from the first to the last. -/
theorem best_eq_foldr_merge (outcomes : List Outcome) :
    best outcomes = outcomes.foldr merge .noMatch := by
  induction outcomes with
  | nil => rfl
  | cons outcome outcomes ih => rw [best_cons, orBetter_eq_merge, ih, List.foldr_cons]

end Outcome

namespace Grammar

variable (tokens : List Token) (start : Nat)

/-- About the rest of a message an alternation says the best of what its alternatives say. -/
theorem outcomeFrom_alt (alternatives : List Grammar) :
    (alt alternatives).outcomeFrom tokens start =
      .best (alternatives.map fun alternative => alternative.outcomeFrom tokens start) := by
  rw [outcomeFrom, toList_derivationsFrom_alt, List.filter_flatMap, List.map_flatMap,
    Outcome.best_flatMap]
  rfl

/-- About a whole message an alternation says the merge of what all its alternatives say. -/
theorem parse_alt (alternatives : List Grammar) :
    (alt alternatives).parse tokens =
      (alternatives.map fun alternative => alternative.parse tokens).foldr .merge .noMatch := by
  simp only [parse_eq_outcomeFrom, outcomeFrom_alt, Outcome.best_eq_foldr_merge]

/-- The operator of alternations merges the outcomes of its two sides, whatever they are: a side that
is an alternation itself is made of its alternatives, but its outcome takes part as a whole. -/
theorem parse_or_eq_merge (left right : Grammar) :
    (left ||| right).parse tokens = (left.parse tokens).merge (right.parse tokens) := by
  have hsides : (left ||| right).parse tokens = (alt [left, right]).parse tokens := by
    rw [parse_eq_outcomeFrom, parse_eq_outcomeFrom]
    exact (equivalent_or left right).outcomeFrom_eq
  have hlast : (right.parse tokens).merge .noMatch = right.parse tokens := by
    rw [← Outcome.orBetter_eq_merge, Outcome.orBetter_noMatch]
  rw [hsides, parse_alt, List.map_cons, List.map_singleton, List.foldr_cons, List.foldr_cons,
    List.foldr_nil, hlast]

end Grammar

end MessageGrammar
