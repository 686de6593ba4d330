import MessageGrammar.Proofs.Derivability
import MessageGrammar.Proofs.Subgrammars

/-!
# What all derivations have in common

A derivation leads from a start with its items to a stop. If some property of such passages holds of
staying in place and of two passages one after another, then sequences, alternatives and repetitions
have it as soon as their parts do, and only the other forms of grammars have to be looked at.
-/

namespace MessageGrammar

/-- Passages inside a message of some length that may be put one after another. -/
structure Composable (length : Nat) (passage : Passage) : Prop where
  /-- It is possible to stay in place. -/
  stay : ∀ start ≤ length, passage start [] start
  /-- Two passages one after another are a passage. -/
  join : ∀ {start middle stop : Nat} {first others : List Item}, start ≤ middle → middle ≤ stop →
    stop ≤ length → passage start first middle → passage middle others stop →
    passage start (first ++ others) stop

/-- What holds of all items holds of the items of two passages one after another. -/
theorem composable_items (length : Nat) (holds : Item → Prop) :
    Composable length fun _ items _ => ∀ item ∈ items, holds item where
  stay _ _ _ hitem := absurd hitem List.not_mem_nil
  join _ _ _ hfirst hothers := List.forall_mem_append.mpr ⟨hfirst, hothers⟩

namespace Grammar

/-- All derivations of a grammar from the positions of a message are such passages. -/
def Keeps (tokens : List Token) (passage : Passage) (grammar : Grammar) : Prop :=
  ∀ start ≤ tokens.length, ∀ items stop, grammar.Yields tokens start items stop →
    passage start items stop

variable {tokens : List Token} {passage : Passage}

/-- A run of iterations does not leave the message. -/
theorem bounds_of_iterations {inner : Grammar} {free n start stop : Nat} {items : List Item}
    (hs : start ≤ tokens.length) (h : Iterations (inner.Yields tokens) free n start items stop) :
    start ≤ stop ∧ stop ≤ tokens.length := by
  induction h with
  | none => exact ⟨Nat.le_refl _, hs⟩
  | more iteration _ _ ih =>
    have hfirst := iteration.bounds hs
    have hlater := ih hfirst.2
    omega

/-- A run of iterations is composed of its iterations. -/
theorem Keeps.iterations {inner : Grammar} (h : Keeps tokens passage inner)
    (hpassage : Composable tokens.length passage) {free n start stop : Nat} {items : List Item}
    (hs : start ≤ tokens.length) (hrun : Iterations (inner.Yields tokens) free n start items stop) :
    passage start items stop := by
  induction hrun with
  | none => exact hpassage.stay _ hs
  | more iteration _ later ih =>
    have hfirst := iteration.bounds hs
    have hlater := bounds_of_iterations hfirst.2 later
    exact hpassage.join hfirst.1 hlater.1 hlater.2 (h _ hs _ _ iteration) (ih hfirst.2)

/-- A repetition keeps what its inner grammar keeps. -/
theorem keeps_repetition {inner : Grammar} (min : UInt64) (max : Option UInt64)
    (hpassage : Composable tokens.length passage) (h : Keeps tokens passage inner) :
    Keeps tokens passage (repetition inner min max) := by
  intro start hs items stop hyields
  obtain ⟨n, -, -, hrun⟩ := yields_repetition_iff.mp hyields
  exact h.iterations hpassage hs hrun

/-- A sequence keeps what its parts keep. -/
theorem keeps_seq {parts : List Grammar} (hpassage : Composable tokens.length passage)
    (h : ∀ part ∈ parts, Keeps tokens passage part) : Keeps tokens passage (seq parts) := by
  induction parts with
  | nil =>
    intro start hs items stop hyields
    obtain ⟨rfl, rfl⟩ := yields_seq_nil_iff.mp hyields
    exact hpassage.stay stop hs
  | cons part parts ih =>
    obtain ⟨hpart, hparts⟩ := List.forall_mem_cons.mp h
    intro start hs items stop hyields
    obtain ⟨first, middle, others, hfirst, hothers, rfl⟩ := yields_seq_cons_iff.mp hyields
    have hmiddle := hfirst.bounds hs
    have hstop := hothers.bounds hmiddle.2
    have hleft := hpart start hs first middle hfirst
    have hright := ih hparts middle hmiddle.2 others stop hothers
    exact hpassage.join hmiddle.1 hstop.1 hstop.2 hleft hright

/-- An alternation keeps what its alternatives keep. -/
theorem keeps_alt {alternatives : List Grammar}
    (h : ∀ alternative ∈ alternatives, Keeps tokens passage alternative) :
    Keeps tokens passage (alt alternatives) := by
  intro start hs items stop hyields
  obtain ⟨alternative, hmem, halternative⟩ := yields_alt_iff.mp hyields
  exact h alternative hmem start hs items stop halternative

/-- A choice by priority keeps what its alternatives keep. -/
theorem keeps_first {alternatives : List Grammar}
    (h : ∀ alternative ∈ alternatives, Keeps tokens passage alternative) :
    Keeps tokens passage (first alternatives) := by
  induction alternatives with
  | nil => exact fun start hs items stop hyields => absurd hyields not_yields_first_nil
  | cons alternative others ih =>
    obtain ⟨halternative, hothers⟩ := List.forall_mem_cons.mp h
    intro start hs items stop hyields
    rcases yields_first_cons_iff.mp hyields with hyields | ⟨-, hyields⟩
    · exact halternative start hs items stop hyields
    · exact ih hothers start hs items stop hyields

/-- All derivations of a grammar have a property of passages if it holds of what single tokens and
missing fields yield, and if dropping and tagging keep it where a condition holds that the grammar
meets everywhere. -/
theorem keeps_of_everywhere {holds : Grammar → Prop} {grammar : Grammar}
    (hpassage : Composable tokens.length passage)
    (htoken : ∀ kinds, Keeps tokens passage (token kinds))
    (hdrop : ∀ inner, holds (drop inner) → Keeps tokens passage inner →
      Keeps tokens passage (drop inner))
    (hmissing : ∀ label, Keeps tokens passage (missing label))
    (htag : ∀ name inner, holds (tag name inner) → Keeps tokens passage inner →
      Keeps tokens passage (tag name inner))
    (h : grammar.Everywhere holds) : Keeps tokens passage grammar := by
  induction grammar with
  | token kinds => exact htoken kinds
  | drop inner ih => exact hdrop inner h.here (ih (h.inside List.mem_cons_self))
  | seq parts ih => exact keeps_seq hpassage fun part hpart => ih part hpart (h.inside hpart)
  | alt alternatives ih => exact keeps_alt fun part hpart => ih part hpart (h.inside hpart)
  | first alternatives ih => exact keeps_first fun part hpart => ih part hpart (h.inside hpart)
  | repetition inner min max ih =>
    exact keeps_repetition min max hpassage (ih (h.inside List.mem_cons_self))
  | missing label => exact hmissing label
  | tag name inner ih => exact htag name inner h.here (ih (h.inside List.mem_cons_self))

end Grammar

end MessageGrammar
