import MessageGrammar.Proofs.Passages

/-!
# Longer messages

More tokens behind a message give a grammar more to do: repetitions go on, missing fields swallow
more. But as long as nothing in the grammar is chosen by priority, what stops within the old message
is left as it was. The derivations over the longer message, without those that stop behind the old
one, are the derivations over the old message, in the same order. A choice by priority may turn to
another alternative when more tokens follow, and then its old derivations are lost.
-/

namespace MessageGrammar

/-- The derivation stops within the first `length` tokens. -/
def Derivation.within (length : Nat) (derivation : Derivation) : Bool :=
  derivation.stop ≤ length

/-- A change of derivations that moves no stop may be made before or after those that stop too late
are left out. -/
theorem Derivation.filter_within_map (change : Derivation → Derivation)
    (h : ∀ derivation, (change derivation).stop = derivation.stop) (length : Nat)
    (derivations : List Derivation) :
    (derivations.map change).filter (within length) =
      (derivations.filter (within length)).map change := by
  have hsame : within length ∘ change = within length := by
    funext derivation
    simp only [Function.comp_apply, within, h]
  rw [List.filter_map, hsame]

/-- Tagging does not move a stop. -/
theorem Derivation.stop_tagged (name : String) (derivation : Derivation) :
    (derivation.tagged name).stop = derivation.stop := by
  unfold tagged
  split <;> rfl

/-- Derivations that stop behind a position behind the first `length` tokens do not stop within
these. -/
theorem Derivation.filter_within_eq_nil {length position : Nat} {derivations : List Derivation}
    (h : ∀ derivation ∈ derivations, position ≤ derivation.stop) (hbehind : length < position) :
    derivations.filter (within length) = [] := by
  apply List.filter_eq_nil_iff.mpr
  intro derivation hd hwithin
  have hstop : derivation.stop ≤ length := of_decide_eq_true hwithin
  have hposition := h derivation hd
  omega

/-- If derivations are followed by others that do not go back, all that stops within the first
`length` tokens follows the derivations that stop within these. -/
theorem Derivation.filter_within_flatMap {length : Nat} {found : List Derivation}
    {later old : Derivation → List Derivation}
    (hwithin : ∀ first ∈ found, first.stop ≤ length →
      (later first).filter (within length) = old first)
    (hforward : ∀ first ∈ found, ∀ derivation ∈ later first, first.stop ≤ derivation.stop) :
    (found.flatMap fun first => (later first).map (after first.items)).filter (within length) =
      (found.filter (within length)).flatMap fun first => (old first).map (after first.items) := by
  induction found with
  | nil => rfl
  | cons first found ih =>
    obtain ⟨hhead, htail⟩ := List.forall_mem_cons.mp hwithin
    obtain ⟨hforwardhead, hforwardtail⟩ := List.forall_mem_cons.mp hforward
    rw [List.flatMap_cons, List.filter_append, ih htail hforwardtail,
      filter_within_map (after first.items) (fun _ => rfl)]
    by_cases hstop : first.stop ≤ length
    · have hkept : within length first = true := decide_eq_true hstop
      rw [List.filter_cons_of_pos hkept, List.flatMap_cons, hhead hstop]
    · have hleft : ¬within length first = true := fun h => hstop (of_decide_eq_true h)
      rw [List.filter_cons_of_neg hleft,
        filter_within_eq_nil hforwardhead (Nat.lt_of_not_le hstop), List.map_nil, List.nil_append]

namespace Grammar

/-- The grammar is a choice by priority. -/
def isFirst : Grammar → Bool
  | first _ => true
  | _ => false

variable {tokens more : List Token}

/-- More tokens behind a message leave the derivations that stop within it as they are. -/
def Lasting (tokens more : List Token) (grammar : Grammar) : Prop :=
  ∀ start ≤ tokens.length,
    ((grammar.derivationsFrom (tokens ++ more) start).toList.filter
      (Derivation.within tokens.length)) = (grammar.derivationsFrom tokens start).toList

/-- A token of the old message is the same in the longer one, and none is taken behind it by a
derivation that stops within the old message. -/
theorem lasting_token (kinds : TokenClass) : Lasting tokens more (token kinds) := by
  intro start hs
  rw [toList_derivationsFrom_token, toList_derivationsFrom_token]
  rcases Nat.lt_or_eq_of_le hs with hin | hend
  · have hstop : Derivation.within tokens.length ⟨[.token tokens[start]], start + 1⟩ = true :=
      decide_eq_true hin
    rw [List.getElem?_append_left hin, List.getElem?_eq_getElem hin]
    by_cases haccepts : kinds.accepts tokens[start].kind = true
    · simp only [if_pos haccepts, List.filter_cons_of_pos hstop, List.filter_nil]
    · simp only [if_neg haccepts, List.filter_nil]
  · have hnone : tokens[start]? = none := List.getElem?_eq_none (Nat.le_of_eq hend.symm)
    rw [hnone]
    have hbehind : tokens.length < start + 1 := by omega
    refine Derivation.filter_within_eq_nil ?_ hbehind
    intro derivation hd
    split at hd
    · split at hd
      · exact Nat.le_of_eq (congrArg Derivation.stop (List.mem_singleton.mp hd)).symm
      · exact absurd hd List.not_mem_nil
    · exact absurd hd List.not_mem_nil

/-- Dropping moves no stops. -/
theorem lasting_drop {inner : Grammar} (h : Lasting tokens more inner) :
    Lasting tokens more (drop inner) := by
  intro start hs
  rw [toList_derivationsFrom_drop, toList_derivationsFrom_drop,
    Derivation.filter_within_map Derivation.dropItems (fun _ => rfl), h start hs]

/-- Tagging moves no stops. -/
theorem lasting_tag (name : String) {inner : Grammar} (h : Lasting tokens more inner) :
    Lasting tokens more (tag name inner) := by
  intro start hs
  rw [toList_derivationsFrom_tag, toList_derivationsFrom_tag,
    Derivation.filter_within_map _ (Derivation.stop_tagged name), h start hs]

/-- In a sequence, the parts behind a derivation that stops within the old message are as they were,
and behind any other one nothing stops there. -/
theorem lasting_seq {parts : List Grammar} (h : ∀ part ∈ parts, Lasting tokens more part) :
    Lasting tokens more (seq parts) := by
  induction parts with
  | nil =>
    intro start hs
    have hstop : Derivation.within tokens.length ⟨[], start⟩ = true := decide_eq_true hs
    rw [toList_derivationsFrom_seq_nil, toList_derivationsFrom_seq_nil,
      List.filter_cons_of_pos hstop, List.filter_nil]
  | cons part parts ih =>
    obtain ⟨hpart, hparts⟩ := List.forall_mem_cons.mp h
    intro start hs
    rw [toList_derivationsFrom_seq_cons, toList_derivationsFrom_seq_cons, ← hpart start hs]
    apply Derivation.filter_within_flatMap
    · intro found _ hstop
      exact ih hparts found.stop hstop
    · intro found _ derivation hd
      exact (bounds_of_mem_derivationsFrom hd).1

/-- In an alternation, every alternative has its derivations as before. -/
theorem lasting_alt {alternatives : List Grammar}
    (h : ∀ alternative ∈ alternatives, Lasting tokens more alternative) :
    Lasting tokens more (alt alternatives) := by
  intro start hs
  rw [toList_derivationsFrom_alt, toList_derivationsFrom_alt, List.filter_flatMap]
  apply List.flatMap_congr
  intro alternative hmem
  exact h alternative hmem start hs

/-- A repetition does not go back. -/
theorem le_stop_of_mem_iterated {inner : Grammar} {min : Nat} {max : Option Nat}
    {count position : Nat} (hp : position ≤ tokens.length) :
    ∀ derivation ∈ inner.iterated min max tokens count position, position ≤ derivation.stop := by
  intro derivation hd
  obtain ⟨n, -, -, hrun⟩ := mem_iterated_iff.mp hd
  exact (bounds_of_iterations hp hrun).1

/-- The next iterations that stop within the old message are as they were. -/
theorem Lasting.stepsAt {inner : Grammar} (h : Lasting tokens more inner) (max : Option Nat)
    (count : Nat) {position : Nat} (hp : position ≤ tokens.length) :
    (inner.stepsAt max (tokens ++ more) count position).filter (Derivation.within tokens.length) =
      inner.stepsAt max tokens count position := by
  unfold Grammar.stepsAt
  split
  · exact h position hp
  · rfl

/-- What a repetition lists behind an iteration stands behind its items, also where that is
nothing since the iteration is passed over. -/
theorem iterated_eq_flatMap_after {inner : Grammar} {min : Nat} {max : Option Nat}
    (count position : Nat) :
    inner.iterated min max tokens count position =
      ((inner.stepsAt max tokens count position).flatMap fun step =>
        (if min ≤ count ∧ step.stop = position then []
          else inner.iterated min max tokens (count + 1) step.stop).map
            (Derivation.after step.items)) ++
      if min ≤ count then [⟨[], position⟩] else [] := by
  rw [iterated_eq]
  simp only [apply_ite (List.map _), List.map_nil]

/-- A repetition that has come to a position of the old message has from there the derivations it
had. The induction is along the recursion over the old message; the longer one has iterations
besides, and all that follows them stops behind the old message. -/
theorem Lasting.iterated {inner : Grammar} (h : Lasting tokens more inner) {min : Nat}
    {max : Option Nat} {count position : Nat} (hp : position ≤ tokens.length) :
    (inner.iterated min max (tokens ++ more) count position).filter
        (Derivation.within tokens.length) =
      inner.iterated min max tokens count position := by
  induction count, position using iterated.induct inner min max tokens with
  | case1 count position ih =>
    have hlength : tokens.length ≤ (tokens ++ more).length := by
      rw [List.length_append]
      omega
    have hend : (if min ≤ count then [(⟨[], position⟩ : Derivation)] else []).filter
        (Derivation.within tokens.length) = if min ≤ count then [⟨[], position⟩] else [] := by
      split
      · exact List.filter_cons_of_pos (decide_eq_true hp)
      · rfl
    rw [iterated_eq_flatMap_after, iterated_eq_flatMap_after count, List.filter_append, hend,
      ← h.stepsAt max count hp]
    congr 1
    apply Derivation.filter_within_flatMap
    · intro step hstep hstop
      have hold : step ∈ inner.stepsAt max tokens count position := by
        rw [← h.stepsAt max count hp]
        exact List.mem_filter.mpr ⟨hstep, decide_eq_true hstop⟩
      by_cases hpass : min ≤ count ∧ step.stop = position
      · rw [if_pos hpass, if_pos hpass, List.filter_nil]
      · rw [if_neg hpass, if_neg hpass, ih step hold hpass hstop]
    · intro step hstep derivation hd
      have hbounds := bounds_of_mem_derivationsFrom (mem_stepsAt.mp hstep).2
      split at hd
      · exact absurd hd List.not_mem_nil
      · exact le_stop_of_mem_iterated (by omega) derivation hd

/-- A repetition of a grammar with lasting derivations has lasting derivations. -/
theorem lasting_repetition {inner : Grammar} (min : UInt64) (max : Option UInt64)
    (h : Lasting tokens more inner) : Lasting tokens more (repetition inner min max) := by
  intro start hs
  rw [toList_derivationsFrom_repetition, toList_derivationsFrom_repetition, h.iterated hs]

/-- A missing field swallows all tokens first and then fewer and fewer: the stops behind the old
message come before the old ones. -/
theorem lasting_missing (label : String) : Lasting tokens more (missing label) := by
  intro start hs
  have hlength : (tokens ++ more).length - start + 1 =
      tokens.length - start + 1 + more.length := by
    rw [List.length_append]
    omega
  rw [toList_derivationsFrom_missing, toList_derivationsFrom_missing, hlength, List.range_add,
    List.reverse_append, List.map_append, List.filter_append]
  have hbehind : ∀ derivation ∈ ((List.range more.length).map
      (tokens.length - start + 1 + ·)).reverse.map fun taken =>
        (⟨[.diagnostic label], start + taken⟩ : Derivation),
      tokens.length + 1 ≤ derivation.stop := by
    intro derivation hd
    obtain ⟨taken, htaken, rfl⟩ := List.mem_map.mp hd
    obtain ⟨n, -, rfl⟩ := List.mem_map.mp (List.mem_reverse.mp htaken)
    dsimp only
    omega
  have hwithin : ∀ derivation ∈ (List.range (tokens.length - start + 1)).reverse.map fun taken =>
        (⟨[.diagnostic label], start + taken⟩ : Derivation),
      derivation.within tokens.length = true := by
    intro derivation hd
    obtain ⟨taken, htaken, rfl⟩ := List.mem_map.mp hd
    have hless := List.mem_range.mp (List.mem_reverse.mp htaken)
    apply decide_eq_true
    dsimp only
    omega
  rw [Derivation.filter_within_eq_nil hbehind (Nat.lt_succ_self _), List.filter_eq_self.mpr hwithin,
    List.nil_append]

/-- More tokens never change what a grammar without choices by priority makes of the message before
them: from every position of the message, the derivations over the longer message that stop within
the old one are the derivations over the old message, in the same order and with the same items. -/
theorem derivations_last_without_choice {grammar : Grammar}
    (h : grammar.Everywhere fun part => part.isFirst = false) (tokens more : List Token)
    {start : Nat} (hs : start ≤ tokens.length) :
    ((grammar.derivationsFrom (tokens ++ more) start).toList.filter
      (Derivation.within tokens.length)) = (grammar.derivationsFrom tokens start).toList := by
  suffices hlasting : Lasting tokens more grammar from hlasting start hs
  induction grammar with
  | token kinds => exact lasting_token kinds
  | drop inner ih => exact lasting_drop (ih (h.inside List.mem_cons_self))
  | seq parts ih => exact lasting_seq fun part hpart => ih part hpart (h.inside hpart)
  | alt alternatives ih => exact lasting_alt fun part hpart => ih part hpart (h.inside hpart)
  | first alternatives => exact Bool.noConfusion h.here
  | repetition inner min max ih =>
    exact lasting_repetition min max (ih (h.inside List.mem_cons_self))
  | missing label => exact lasting_missing label
  | tag name inner ih => exact lasting_tag name (ih (h.inside List.mem_cons_self))

/-- A name and a gap behind it are found as before in a message that goes on with another word. -/
theorem name_lasts_in_longer_message :
    (seq [word.many, missing "age"]).Everywhere (fun part => part.isFirst = false) ∧
      0 ≤ [Token.word "Ann"].length ∧
      (((seq [word.many, missing "age"]).derivationsFrom
        ([.word "Ann"] ++ [.word "Lee"]) 0).toList.filter (Derivation.within 1)) =
          [⟨[.token (.word "Ann"), .diagnostic "age"], 1⟩] := by
  have hfree : (seq [word.many, missing "age"]).Everywhere (fun part => part.isFirst = false) := by
    decide
  have hstart : 0 ≤ [Token.word "Ann"].length := Nat.zero_le _
  have hlast := derivations_last_without_choice hfree [.word "Ann"] [.word "Lee"] hstart
  have hold : ((seq [word.many, missing "age"]).derivationsFrom [.word "Ann"] 0).toList =
      [⟨[.token (.word "Ann"), .diagnostic "age"], 1⟩] := by cbv
  exact ⟨hfree, hstart, hlast.trans hold⟩

/-- A choice by priority turns to an alternative that more tokens allow. -/
example : ((first [seq [word, integer], word]).derivationsFrom
    ([.word "Ann"] ++ [.integer 7]) 0).toList.filter (Derivation.within 1) = [] := by
  rfl

end Grammar

end MessageGrammar
