import MessageGrammar.Proofs.Positions
import MessageGrammar.Proofs.Selection

/-!
# The best of several outcomes

Every derivation has an outcome of its own, and the outcome for a list of derivations is the best of
theirs: a match before a diagnostic, the deeper of two diagnostics, the first of two that are equal
in this. Taking the best is associative, and it makes no difference whether items are put in front of
the outcomes or of the best one. So the outcome for a message can be put together from outcomes for
parts of its list of derivations.
-/

namespace MessageGrammar

namespace Outcome

/-- The better of two outcomes: a match before a diagnostic and a diagnostic before none, of two
diagnostics the deeper one, else the first. -/
def orBetter : Outcome → Outcome → Outcome
  | matched items, _ => .matched items
  | diagnostic _, matched items => .matched items
  | diagnostic d, diagnostic d' => .diagnostic (Diagnostic.deeper (some d) d')
  | diagnostic d, noMatch => .diagnostic d
  | noMatch, other => other

/-- No match is never better. -/
@[simp] theorem noMatch_orBetter (outcome : Outcome) : noMatch.orBetter outcome = outcome := rfl

/-- Anything is at least as good as no match. -/
@[simp] theorem orBetter_noMatch (outcome : Outcome) : outcome.orBetter noMatch = outcome := by
  cases outcome <;> rfl

/-- An outcome is not better than itself. -/
@[simp] theorem orBetter_self (outcome : Outcome) : outcome.orBetter outcome = outcome := by
  cases outcome with
  | matched items => rfl
  | diagnostic d => simp [orBetter, Diagnostic.deeper]
  | noMatch => rfl

/-- The deepest of three diagnostics, the first one if several are. -/
theorem deeper_deeper (d d' d'' : Diagnostic) :
    Diagnostic.deeper (some (Diagnostic.deeper (some d) d')) d'' =
      Diagnostic.deeper (some d) (Diagnostic.deeper (some d') d'') := by
  simp only [Diagnostic.deeper]
  split_ifs <;> first | rfl | omega

/-- The best of three outcomes may be found in either order. -/
theorem orBetter_assoc (first second third : Outcome) :
    (first.orBetter second).orBetter third = first.orBetter (second.orBetter third) := by
  cases first <;> cases second <;> cases third <;> simp [orBetter, deeper_deeper]

/-- The better of two outcomes is one of them. -/
theorem orBetter_eq_or (first second : Outcome) :
    first.orBetter second = first ∨ first.orBetter second = second := by
  cases first with
  | matched items => exact .inl rfl
  | noMatch => exact .inr rfl
  | diagnostic d =>
    cases second with
    | matched items => exact .inr rfl
    | noMatch => exact .inl rfl
    | diagnostic d' =>
      by_cases hle : d'.position ≤ d.position
      · exact .inl (by simp [orBetter, Diagnostic.deeper, hle])
      · exact .inr (by simp [orBetter, Diagnostic.deeper, hle])

/-- There is no match among two outcomes exactly if both are none. -/
theorem orBetter_eq_noMatch_iff {first second : Outcome} :
    first.orBetter second = .noMatch ↔ first = .noMatch ∧ second = .noMatch := by
  cases first <;> cases second <;> simp [orBetter]

/-- The outcome when other items come first: a diagnostic among these counts, else a match has them
in front and a diagnostic is further on by their number. -/
def behind (items : List Item) (outcome : Outcome) : Outcome :=
  match outcome, Diagnostic.find? 0 items with
  | noMatch, _ => .noMatch
  | matched _, some d => .diagnostic d
  | diagnostic _, some d => .diagnostic d
  | matched others, none => .matched (items ++ others)
  | diagnostic d, none => .diagnostic ⟨d.label, items.length + d.position⟩

/-- Without items in front, an outcome is as it is. -/
@[simp] theorem behind_nil (outcome : Outcome) : outcome.behind [] = outcome := by
  cases outcome <;> simp [behind, Diagnostic.find?]

/-- No match stays no match. -/
@[simp] theorem noMatch_behind (items : List Item) : noMatch.behind items = noMatch := rfl

/-- Items in front of items in front. -/
theorem behind_behind (earlier later : List Item) (outcome : Outcome) :
    (outcome.behind later).behind earlier = outcome.behind (earlier ++ later) := by
  have hfound : Diagnostic.find? 0 (earlier ++ later) = (Diagnostic.find? 0 earlier).or
      ((Diagnostic.find? 0 later).map fun d => ⟨d.label, earlier.length + d.position⟩) := by
    rw [Diagnostic.find?_append, Nat.zero_add, Diagnostic.find?_eq_map later]
  cases outcome <;> cases h : Diagnostic.find? 0 earlier <;>
    cases h' : Diagnostic.find? 0 later <;> simp [behind, hfound, h, h', Nat.add_assoc]

/-- Items in front change nothing in which of two outcomes is better. -/
theorem orBetter_behind (items : List Item) (first second : Outcome) :
    (first.orBetter second).behind items = (first.behind items).orBetter (second.behind items) := by
  cases first <;> cases second <;> cases hfound : Diagnostic.find? 0 items <;>
    simp [behind, orBetter, hfound, Diagnostic.deeper]
  split <;> rfl

/-- The best of some outcomes; no match if there are none. -/
def best (outcomes : List Outcome) : Outcome :=
  outcomes.foldr orBetter .noMatch

/-- The best of a list is its first outcome, if none of the others is better. -/
theorem best_cons (outcome : Outcome) (outcomes : List Outcome) :
    best (outcome :: outcomes) = outcome.orBetter (best outcomes) := rfl

/-- The best of two lists is the better of the best of each. -/
theorem best_append (before after : List Outcome) :
    best (before ++ after) = (best before).orBetter (best after) := by
  induction before with
  | nil => rfl
  | cons outcome before ih =>
    rw [List.cons_append, best_cons, ih, best_cons, orBetter_assoc]

/-- The best of many lists is the best of the best of each. -/
theorem best_flatMap {α : Type} (f : α → List Outcome) (elements : List α) :
    best (elements.flatMap f) = best (elements.map fun a => best (f a)) := by
  induction elements with
  | nil => rfl
  | cons a elements ih =>
    rw [List.flatMap_cons, best_append, ih, List.map_cons, best_cons]

/-- The best outcome is the same whether items are put in front of all outcomes or of the best. -/
theorem best_map_behind (items : List Item) (outcomes : List Outcome) :
    best (outcomes.map (behind items)) = (best outcomes).behind items := by
  induction outcomes with
  | nil => rfl
  | cons outcome outcomes ih =>
    rw [List.map_cons, best_cons, best_cons, orBetter_behind, ih]

/-- There is no match among some outcomes exactly if none of them is one. -/
theorem best_eq_noMatch_iff {outcomes : List Outcome} :
    best outcomes = .noMatch ↔ ∀ outcome ∈ outcomes, outcome = .noMatch := by
  induction outcomes with
  | nil => simp [best]
  | cons outcome outcomes ih =>
    rw [best_cons, orBetter_eq_noMatch_iff, ih, List.forall_mem_cons]

/-- The best of some outcomes is one of them, unless there is none. -/
theorem best_eq_noMatch_or_mem (outcomes : List Outcome) :
    best outcomes = .noMatch ∨ best outcomes ∈ outcomes := by
  induction outcomes with
  | nil => exact .inl rfl
  | cons outcome outcomes ih =>
    rw [best_cons]
    rcases orBetter_eq_or outcome (best outcomes) with h | h
    · rw [h]
      exact .inr List.mem_cons_self
    · rw [h]
      exact ih.imp_right (List.mem_cons_of_mem outcome)

/-- If all outcomes but those without a match agree, and there is one, they agree on the best. -/
theorem best_eq_of_unanimous {outcomes : List Outcome} {chosen : Outcome}
    (hall : ∀ outcome ∈ outcomes, outcome = .noMatch ∨ outcome = chosen)
    (hmem : chosen ∈ outcomes) : best outcomes = chosen := by
  rcases best_eq_noMatch_or_mem outcomes with hnone | hbest
  · rw [hnone]
    exact (best_eq_noMatch_iff.mp hnone chosen hmem).symm
  · rcases hall _ hbest with hnone | hchosen
    · rw [hnone]
      exact (best_eq_noMatch_iff.mp hnone chosen hmem).symm
    · exact hchosen

end Outcome

/-- The outcome of a derivation on its own. -/
def Derivation.outcome (derivation : Derivation) : Outcome :=
  match derivation.diagnostic? with
  | none => .matched derivation.items
  | some d => .diagnostic d

/-- A derivation behind earlier items has the outcome behind these items. -/
theorem Derivation.outcome_after (items : List Item) (derivation : Derivation) :
    (derivation.after items).outcome = derivation.outcome.behind items := by
  have hfound : (derivation.after items).diagnostic? = (Diagnostic.find? 0 items).or
      (derivation.diagnostic?.map fun d => ⟨d.label, items.length + d.position⟩) := by
    rw [diagnostic?, after, Diagnostic.find?_append, Nat.zero_add,
      Diagnostic.find?_eq_map derivation.items]
    rfl
  rw [outcome, hfound, outcome]
  cases derivation.diagnostic? <;> cases h : Diagnostic.find? 0 items <;>
    simp [Outcome.behind, h, after]

namespace Outcome

/-- The selection keeps the better of what it found before and the best of the derivations. -/
theorem select_eq_best (found : Option Diagnostic) (derivations : List Derivation) :
    select found (.ofList derivations) =
      (found.elim noMatch diagnostic).orBetter (best (derivations.map Derivation.outcome)) := by
  induction derivations generalizing found with
  | nil => cases found <;> rfl
  | cons derivation derivations ih =>
    rw [Enumeration.ofList, select, List.map_cons, best_cons, ← orBetter_assoc, Derivation.outcome]
    cases derivation.diagnostic? with
    | none => cases found <;> rfl
    | some next =>
      dsimp only
      rw [ih]
      cases found <;> rfl

end Outcome

end MessageGrammar
