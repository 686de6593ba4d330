import MessageGrammar.Proofs.Positions

/-!
# Grammars with the same derivations

Two grammars mean the same if they have the same derivations in the same order, whatever the message
and wherever they start; then nothing tells them apart, since all outcomes are chosen from these
lists. Sequences of equivalent parts are equivalent, and a sequence, an alternation or a choice by
priority directly inside one of its own kind may be replaced by its parts. So the operators, which
keep their chains flat, mean what the nested trees mean.
-/

namespace MessageGrammar

/-- Items in front of items in front. -/
theorem Derivation.after_after (earlier later : List Item) (derivation : Derivation) :
    (derivation.after later).after earlier = derivation.after (earlier ++ later) := by
  simp [after]

/-- Nothing in front of a derivation leaves it as it is. -/
theorem Derivation.after_nil : after [] = id := rfl

namespace Grammar

/-- The same derivations in the same order, from every start in every message. The starts that are
positions of the message are those that matter; behind its end both grammars find no tokens ahead. -/
def Equivalent (first second : Grammar) : Prop :=
  ∀ tokens start, (first.derivationsFrom tokens start).toList =
    (second.derivationsFrom tokens start).toList

namespace Equivalent

variable {first second third : Grammar}

theorem refl (grammar : Grammar) : Equivalent grammar grammar := fun _ _ => rfl

theorem symm (h : Equivalent first second) : Equivalent second first :=
  fun tokens start => (h tokens start).symm

theorem trans (h : Equivalent first second) (h' : Equivalent second third) :
    Equivalent first third :=
  fun tokens start => (h tokens start).trans (h' tokens start)

end Equivalent

/-- A sequence means the same if its first part and the sequence of its other parts do. -/
theorem equivalent_seq_cons {part part' : Grammar} {parts parts' : List Grammar}
    (hpart : Equivalent part part') (hparts : Equivalent (seq parts) (seq parts')) :
    Equivalent (seq (part :: parts)) (seq (part' :: parts')) := by
  intro tokens start
  rw [toList_derivationsFrom_seq_cons, toList_derivationsFrom_seq_cons, hpart]
  apply List.flatMap_congr
  intro found _
  rw [hparts]

/-- A sequence in front of other parts is made of its parts. The items of a derivation are put
together from the left in one of the two, from the right in the other. -/
theorem equivalent_seq_seq (parts others : List Grammar) :
    Equivalent (seq (seq parts :: others)) (seq (parts ++ others)) := by
  intro tokens start
  induction parts generalizing start with
  | nil =>
    rw [toList_derivationsFrom_seq_cons, toList_derivationsFrom_seq_nil, List.nil_append]
    simp [Derivation.after_nil]
  | cons part parts ih =>
    rw [toList_derivationsFrom_seq_cons, toList_derivationsFrom_seq_cons, List.flatMap_assoc,
      List.cons_append, toList_derivationsFrom_seq_cons]
    apply List.flatMap_congr
    intro found _
    rw [← ih, toList_derivationsFrom_seq_cons, List.flatMap_map, List.map_flatMap]
    apply List.flatMap_congr
    intro later _
    rw [List.map_map]
    apply List.map_congr_left
    intro last _
    exact (last.after_after found.items later.items).symm

/-- A sequence of one part is that part. -/
theorem equivalent_seq_singleton (grammar : Grammar) : Equivalent (seq [grammar]) grammar := by
  intro tokens start
  rw [toList_derivationsFrom_seq_cons]
  simp [toList_derivationsFrom_seq_nil, Derivation.after]

/-- A grammar in front is made of its parts, if it is a sequence. -/
theorem equivalent_seqParts (grammar : Grammar) (others : List Grammar) :
    Equivalent (seq (grammar.seqParts ++ others)) (seq (grammar :: others)) := by
  cases grammar with
  | seq parts => exact (equivalent_seq_seq parts others).symm
  | _ => exact .refl _

/-- The operator of sequences means the sequence of its two sides. -/
theorem equivalent_and (first second : Grammar) :
    Equivalent (first &&& second) (seq [first, second]) := by
  have hfirst := equivalent_seqParts first second.seqParts
  have hsecond := equivalent_seqParts second []
  rw [List.append_nil] at hsecond
  exact hfirst.trans (equivalent_seq_cons (.refl first) hsecond)

/-- The alternatives of an alternation, or the grammar itself, list its derivations in turn. -/
theorem flatMap_altParts (grammar : Grammar) (tokens : List Token) (start : Nat) :
    (grammar.altParts.flatMap fun alternative =>
      (alternative.derivationsFrom tokens start).toList) =
        (grammar.derivationsFrom tokens start).toList := by
  cases grammar with
  | alt alternatives => exact (toList_derivationsFrom_alt tokens start alternatives).symm
  | _ => exact List.flatMap_singleton _ _

/-- The operator of alternations means the alternation of its two sides. -/
theorem equivalent_or (first second : Grammar) :
    Equivalent (first ||| second) (alt [first, second]) := by
  intro tokens start
  have hsides : first ||| second = alt (first.altParts ++ second.altParts) := rfl
  rw [hsides, toList_derivationsFrom_alt, toList_derivationsFrom_alt, List.flatMap_append,
    flatMap_altParts, flatMap_altParts]
  simp

/-- A choice by priority in front of other alternatives is made of its alternatives: the earliest
productive one of the longer list is the earliest of the shorter one, if that has any. -/
theorem equivalent_first_first (alternatives others : List Grammar) :
    Equivalent (first (first alternatives :: others)) (first (alternatives ++ others)) := by
  intro tokens start
  rw [toList_derivationsFrom_first_cons]
  induction alternatives with
  | nil => rw [toList_derivationsFrom_first_nil, if_pos rfl, List.nil_append]
  | cons alternative alternatives ih =>
    rw [toList_derivationsFrom_first_cons, List.cons_append, toList_derivationsFrom_first_cons]
    by_cases hnone : (alternative.derivationsFrom tokens start).toList = []
    · rw [if_pos hnone, if_pos hnone, ih]
    · rw [if_neg hnone, if_neg hnone, if_neg hnone]

/-- A choice by priority means the same if the choice among its later alternatives does. -/
theorem equivalent_first_cons (alternative : Grammar) {others others' : List Grammar}
    (h : Equivalent (first others) (first others')) :
    Equivalent (first (alternative :: others)) (first (alternative :: others')) := by
  intro tokens start
  rw [toList_derivationsFrom_first_cons, toList_derivationsFrom_first_cons, h]

/-- A grammar in front is made of its alternatives, if it is a choice by priority. -/
theorem equivalent_firstParts (grammar : Grammar) (others : List Grammar) :
    Equivalent (first (grammar.firstParts ++ others)) (first (grammar :: others)) := by
  cases grammar with
  | first alternatives => exact (equivalent_first_first alternatives others).symm
  | _ => exact .refl _

/-- The operator of choices by priority means the choice between its two sides. -/
theorem equivalent_mod (first second : Grammar) :
    Equivalent (first % second) (.first [first, second]) := by
  have hfirst := equivalent_firstParts first second.firstParts
  have hsecond := equivalent_firstParts second []
  rw [List.append_nil] at hsecond
  exact hfirst.trans (equivalent_first_cons first hsecond)

/-- The operators keep chains flat without a change of meaning. Each of them has the derivations of
the sequence, the alternation or the choice between its two sides, in the same order, and a chain of
one operator is the same tree however it is put in parentheses. -/
theorem operators_flatten (a b c : Grammar) :
    (Equivalent (a &&& b) (seq [a, b]) ∧ Equivalent (a ||| b) (alt [a, b]) ∧
      Equivalent (a % b) (first [a, b])) ∧
    (a &&& b) &&& c = a &&& (b &&& c) ∧ (a ||| b) ||| c = a ||| (b ||| c) ∧
      (a % b) % c = a % (b % c) := by
  refine ⟨⟨equivalent_and a b, equivalent_or a b, equivalent_mod a b⟩, ?_, ?_, ?_⟩
  · exact congrArg seq (List.append_assoc a.seqParts b.seqParts c.seqParts)
  · exact congrArg alt (List.append_assoc a.altParts b.altParts c.altParts)
  · exact congrArg first (List.append_assoc a.firstParts b.firstParts c.firstParts)

end Grammar

end MessageGrammar
