import MessageGrammar.Grammar.Basic

/-!
# What holds everywhere in a grammar

A condition on grammars holds everywhere in a tree if it holds of the tree and of all grammars
inside it. Conditions on the form of a grammar are stated so, node by node, and are decided so.
-/

namespace MessageGrammar

namespace Grammar

/-- The grammars directly inside a grammar. -/
def parts : Grammar → List Grammar
  | token _ | missing _ => []
  | drop inner | repetition inner _ _ | tag _ inner => [inner]
  | seq parts | alt parts | first parts => parts

/-- Something holds of a grammar and of all grammars inside it. -/
inductive Everywhere (holds : Grammar → Prop) : Grammar → Prop
  /-- It holds here and everywhere in the parts. -/
  | intro {grammar : Grammar} (here : holds grammar)
      (inside : ∀ part ∈ grammar.parts, Everywhere holds part) : Everywhere holds grammar

section Everywhere

variable {holds holds' : Grammar → Prop} {grammar part : Grammar}

/-- What holds everywhere holds here. -/
theorem Everywhere.here (h : Everywhere holds grammar) : holds grammar := by
  cases h with
  | intro here _ => exact here

/-- What holds everywhere holds everywhere in a part. -/
theorem Everywhere.inside (h : Everywhere holds grammar) (hpart : part ∈ grammar.parts) :
    Everywhere holds part := by
  cases h with
  | intro _ inside => exact inside part hpart

/-- What follows in each place follows everywhere. -/
theorem Everywhere.imp (h : Everywhere holds grammar)
    (himp : ∀ grammar, holds grammar → holds' grammar) : Everywhere holds' grammar := by
  induction h with
  | intro here _ ih => exact .intro (himp _ here) ih

/-- Two things that hold everywhere hold together everywhere. -/
theorem Everywhere.and (h : Everywhere holds grammar) (h' : Everywhere holds' grammar) :
    Everywhere (fun grammar => holds grammar ∧ holds' grammar) grammar := by
  induction h with
  | intro here _ ih =>
    exact .intro ⟨here, h'.here⟩ fun part hpart => ih part hpart (h'.inside hpart)

/-- What holds of all grammars holds everywhere. -/
theorem everywhere_of_forall (h : ∀ grammar, holds grammar) (grammar : Grammar) :
    Everywhere holds grammar := by
  induction grammar with
  | token kinds | missing label => exact .intro (h _) fun _ hpart => absurd hpart List.not_mem_nil
  | drop inner ih | repetition inner min max ih | tag name inner ih =>
    exact .intro (h _) (List.forall_mem_singleton.mpr ih)
  | seq parts ih | alt parts ih | first parts ih => exact .intro (h _) ih

/-- Something holds everywhere if it holds here and everywhere in the parts. -/
theorem everywhere_iff :
    Everywhere holds grammar ↔ holds grammar ∧ ∀ part ∈ grammar.parts, Everywhere holds part :=
  ⟨fun h => ⟨h.here, fun _ => h.inside⟩, fun h => .intro h.1 h.2⟩

/-- What is decided here and everywhere in the parts is decided everywhere. -/
def decideHere [DecidablePred holds]
    (inside : Decidable (∀ part ∈ grammar.parts, Everywhere holds part)) :
    Decidable (Everywhere holds grammar) :=
  decidable_of_iff' _ everywhere_iff

mutual

/-- Decides whether something holds everywhere, part by part. -/
def decideEverywhere (holds : Grammar → Prop) [DecidablePred holds] :
    (grammar : Grammar) → Decidable (Everywhere holds grammar)
  | token _ | missing _ => decideHere (isTrue fun _ hpart => absurd hpart List.not_mem_nil)
  | drop inner | repetition inner _ _ | tag _ inner =>
    have := decideEverywhere holds inner
    decideHere (decidable_of_iff' _ List.forall_mem_singleton)
  | seq parts | alt parts | first parts => decideHere (decideEverywhereAll holds parts)

/-- Decides whether something holds everywhere in each grammar of a list. -/
def decideEverywhereAll (holds : Grammar → Prop) [DecidablePred holds] :
    (grammars : List Grammar) → Decidable (∀ part ∈ grammars, Everywhere holds part)
  | [] => isTrue fun _ hpart => absurd hpart List.not_mem_nil
  | grammar :: grammars =>
    have := decideEverywhere holds grammar
    have := decideEverywhereAll holds grammars
    decidable_of_iff' _ List.forall_mem_cons

end

instance [DecidablePred holds] : DecidablePred (Everywhere holds) :=
  decideEverywhere holds

end Everywhere

end Grammar

end MessageGrammar
