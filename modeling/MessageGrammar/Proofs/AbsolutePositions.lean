import MessageGrammar.Proofs.Iteration

/-!
# Matching by absolute positions

Matching hands on the tokens that are left and so cannot know where in a message it is. Here the same
derivations are listed by a search that knows nothing else: it keeps the whole message, looks up
tokens by their position, lets a missing field count down from the end of the message, and compares
the positions before and after an iteration. Both list the same derivations in the same order. Hence
neither of them depends on what stands before the start: matching from a position of a message is
matching the tokens from there on, with all stops moved by that position.
-/

namespace MessageGrammar

/-- The same items, `offset` positions later. -/
def Derivation.shift (offset : Nat) (derivation : Derivation) : Derivation :=
  ⟨derivation.items, offset + derivation.stop⟩

namespace Grammar

/-- The derivations of a repetition that has come to a position with `count` iterations behind it.
The iterations from each position are given; one of them is followed if it is needed for the least
count or takes tokens of the message, which ends at `length`. -/
def iterationsAt (steps : Nat → List Derivation) (min : Nat) (max : Option Nat) (length : Nat)
    (count position : Nat) : List Derivation :=
  ((if ∀ most ∈ max, count < most then steps position else []).flatMap fun step =>
    if count < min ∨ position < step.stop ∧ step.stop ≤ length then
      (iterationsAt steps min max length (count + 1) step.stop).map (Derivation.after step.items)
    else []) ++
  if min ≤ count then [⟨[], position⟩] else []
termination_by (min - count, length - position)
decreasing_by
  rename_i hfollowed
  by_cases hc : count < min
  · exact Prod.Lex.left _ _ (by omega)
  · have hmoves := hfollowed.resolve_left hc
    rw [show min - (count + 1) = min - count by omega]
    exact Prod.Lex.right _ (by omega)

section Search

variable (tokens : List Token)

mutual

/-- The derivations of a grammar from a position of the whole message. -/
def listAt : Grammar → Nat → List Derivation
  | token kinds, position => match tokens[position]? with
    | some t => if kinds.accepts t.kind then [⟨[.token t], position + 1⟩] else []
    | none => []
  | drop inner, position => (listAt inner position).map Derivation.dropItems
  | seq parts, position => listSeqAt parts position
  | alt alternatives, position => listAltAt alternatives position
  | first alternatives, position => listFirstAt alternatives position
  | repetition inner min max, position =>
    iterationsAt (listAt inner) min.toNat (max.map UInt64.toNat) tokens.length 0 position
  | missing label, position =>
    (List.range' position (tokens.length + 1 - position)).reverse.map fun stop =>
      ⟨[.diagnostic label], stop⟩
  | tag name inner, position => (listAt inner position).map (Derivation.tagged name)

/-- The derivations of all parts in order, each from the stop of the one before it. -/
def listSeqAt : List Grammar → Nat → List Derivation
  | [], position => [⟨[], position⟩]
  | part :: parts, position =>
    (listAt part position).flatMap fun found =>
      (listSeqAt parts found.stop).map (Derivation.after found.items)

/-- The derivations of each alternative in turn. -/
def listAltAt : List Grammar → Nat → List Derivation
  | [], _ => []
  | alternative :: others, position => listAt alternative position ++ listAltAt others position

/-- The derivations of the earliest alternative that has any. -/
def listFirstAt : List Grammar → Nat → List Derivation
  | [], _ => []
  | alternative :: others, position =>
    if listAt alternative position = [] then listFirstAt others position
    else listAt alternative position

end

end Search

variable {tokens : List Token}

/-- A repetition lists the same by its recursion on derivations and by absolute positions, if its
inner grammar does. The rule for iterations that take nothing is the same in both, since none goes
back or leaves the message. -/
theorem iterated_eq_iterationsAt {inner : Grammar} {min : Nat} {max : Option Nat}
    (h : ∀ position ≤ tokens.length,
      (inner.derivationsFrom tokens position).toList = listAt tokens inner position)
    {count position : Nat} (hp : position ≤ tokens.length) :
    inner.iterated min max tokens count position =
      iterationsAt (listAt tokens inner) min max tokens.length count position := by
  induction count, position using iterated.induct inner min max tokens with
  | case1 count position ih =>
    have hsteps : inner.stepsAt max tokens count position =
        if ∀ most ∈ max, count < most then listAt tokens inner position else [] := by
      rw [stepsAt, h position hp]
    rw [iterated_eq, iterationsAt, ← hsteps]
    congr 1
    apply List.flatMap_congr
    intro step hstep
    have hbounds := bounds_of_mem_derivationsFrom (mem_stepsAt.mp hstep).2
    have hstop : step.stop ≤ tokens.length := by omega
    by_cases hpass : min ≤ count ∧ step.stop = position
    · have hstays : ¬(count < min ∨ position < step.stop ∧ step.stop ≤ tokens.length) := by omega
      rw [if_pos hpass, if_neg hstays]
    · have hfollowed : count < min ∨ position < step.stop ∧ step.stop ≤ tokens.length := by omega
      rw [if_neg hpass, if_pos hfollowed, ih step hstep hpass hstop]

/-- A missing field takes every number of tokens, the greatest first: its stops count down from the
end of the message. -/
theorem toList_derivationsFrom_missing_eq_listAt (label : String) {position : Nat}
    (hp : position ≤ tokens.length) :
    ((missing label).derivationsFrom tokens position).toList =
      listAt tokens (missing label) position := by
  have hlength : tokens.length + 1 - position = tokens.length - position + 1 := by omega
  rw [toList_derivationsFrom_missing, listAt, hlength, List.range'_eq_map_range, ← List.map_reverse,
    List.map_map]
  rfl

/-- Matching from a position of the message and the search by absolute positions list the same
derivations. -/
theorem toList_derivationsFrom_eq_listAt (grammar : Grammar) {position : Nat}
    (hp : position ≤ tokens.length) :
    (grammar.derivationsFrom tokens position).toList = listAt tokens grammar position := by
  induction grammar generalizing position with
  | token kinds =>
    rw [listAt]
    exact toList_derivationsFrom_token tokens position kinds
  | drop inner ih => rw [toList_derivationsFrom_drop, listAt, ih hp]
  | seq parts ih =>
    rw [listAt]
    induction parts generalizing position with
    | nil => rw [toList_derivationsFrom_seq_nil, listSeqAt]
    | cons part parts ihparts =>
      obtain ⟨hpart, hparts⟩ := List.forall_mem_cons.mp ih
      rw [toList_derivationsFrom_seq_cons, listSeqAt, ← hpart hp]
      apply List.flatMap_congr
      intro found hfound
      have hbounds := bounds_of_mem_derivationsFrom hfound
      rw [ihparts hparts (by omega)]
  | alt alternatives ih =>
    rw [listAt, toList_derivationsFrom_alt]
    induction alternatives with
    | nil => rw [List.flatMap_nil, listAltAt]
    | cons alternative others ihothers =>
      obtain ⟨halternative, hothers⟩ := List.forall_mem_cons.mp ih
      rw [List.flatMap_cons, listAltAt, halternative hp, ihothers hothers]
  | first alternatives ih =>
    rw [listAt]
    induction alternatives with
    | nil => rw [toList_derivationsFrom_first_nil, listFirstAt]
    | cons alternative others ihothers =>
      obtain ⟨halternative, hothers⟩ := List.forall_mem_cons.mp ih
      rw [toList_derivationsFrom_first_cons, listFirstAt, halternative hp, ihothers hothers]
  | repetition inner min max ih =>
    rw [toList_derivationsFrom_repetition, listAt]
    exact iterated_eq_iterationsAt (fun _ hle => ih hle) hp
  | missing label => exact toList_derivationsFrom_missing_eq_listAt label hp
  | tag name inner ih => rw [toList_derivationsFrom_tag, listAt, ih hp]

/-- Readings of the tokens ahead, placed at a position, are placed at the beginning and moved. -/
theorem toList_derivationsFrom_eq_map_shift (grammar : Grammar) (tokens : List Token)
    (start : Nat) :
    (grammar.derivationsFrom tokens start).toList =
      (grammar.derivationsFrom (tokens.drop start) 0).toList.map (Derivation.shift start) := by
  rw [toList_derivationsFrom, toList_derivationsFrom, List.drop_zero, List.map_map]
  apply List.map_congr_left
  intro reading _
  simp only [Function.comp_apply, Reading.place, Derivation.shift, Nat.zero_add]

/-- Matching from a position of the message depends only on what follows. The derivations from there
are those of the rest of the message from its beginning, in the same order and with the same items,
each stop moved by the position. This holds also of the search that never cuts the message: it looks
up tokens, counts down and compares iterations by absolute positions, and lists the same. -/
theorem derivations_depend_on_what_follows (grammar : Grammar) {start : Nat}
    (h : start ≤ tokens.length) :
    (grammar.derivationsFrom tokens start).toList =
        (grammar.derivationsFrom (tokens.drop start) 0).toList.map (Derivation.shift start) ∧
      listAt tokens grammar start =
        (listAt (tokens.drop start) grammar 0).map (Derivation.shift start) ∧
      (grammar.derivationsFrom tokens start).toList = listAt tokens grammar start := by
  have hshift := grammar.toList_derivationsFrom_eq_map_shift tokens start
  have hwhole := toList_derivationsFrom_eq_listAt grammar h
  have hrest := toList_derivationsFrom_eq_listAt grammar (Nat.zero_le (tokens.drop start).length)
  refine ⟨hshift, ?_, hwhole⟩
  rw [← hwhole, ← hrest, hshift]

/-- Behind a delimiter a name and an age are found as in the message without it, one position later. -/
theorem name_and_age_behind_delimiter :
    1 ≤ [Token.delimiter ',', .word "Ann", .integer 7].length ∧
      ((seq [word.many, number.orMissing "age"]).derivationsFrom
        [.delimiter ',', .word "Ann", .integer 7] 1).toList =
          [⟨[.token (.word "Ann"), .token (.integer 7)], 3⟩] := by
  have hstart : 1 ≤ [Token.delimiter ',', .word "Ann", .integer 7].length := by decide
  obtain ⟨-, hshift, hsame⟩ :=
    derivations_depend_on_what_follows (seq [word.many, number.orMissing "age"]) hstart
  have hrest : listAt [.word "Ann", .integer 7] (seq [word.many, number.orMissing "age"]) 0 =
      [⟨[.token (.word "Ann"), .token (.integer 7)], 2⟩] := by cbv
  refine ⟨hstart, ?_⟩
  rw [hsame, hshift]
  exact congrArg (List.map (Derivation.shift 1)) hrest

end Grammar

end MessageGrammar
