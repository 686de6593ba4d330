import MessageGrammar.Proofs.Iteration

/-!
# Derivability

The rules of grammars, stated as a relation on positions without any search: what a grammar derives
from a position is explained by what its parts derive. The main statement is that matching finds
every derivation that the rules allow and no other.
-/

namespace MessageGrammar

/-- Iterations carry over to a relation that agrees on all positions that can be reached. -/
theorem Iterations.imp {first second : Passage} {reached : Nat → Prop}
    (h : ∀ start items stop, reached start → first start items stop →
      second start items stop ∧ reached stop)
    {free n start stop : Nat} {items : List Item} (hs : reached start)
    (hrun : Iterations first free n start items stop) :
    Iterations second free n start items stop := by
  induction hrun with
  | none => exact .none _ _
  | more iteration moves _ ih =>
    obtain ⟨hsecond, hmiddle⟩ := h _ _ _ hs iteration
    exact .more hsecond moves (ih hmiddle)

namespace Grammar

section Yields

variable {tokens : List Token} {start stop : Nat} {items : List Item}

/-- A derivation from a position of the message stays in the message. -/
theorem Yields.bounds {grammar : Grammar} (h : grammar.Yields tokens start items stop)
    (hs : start ≤ tokens.length) : start ≤ stop ∧ stop ≤ tokens.length := by
  have hbounds := bounds_of_mem_derivationsFrom h
  rwa [Nat.max_eq_right hs] at hbounds

/-- A class yields the token at the start, if it accepts it. -/
theorem yields_token_iff {kinds : TokenClass} :
    (token kinds).Yields tokens start items stop ↔
      ∃ t, tokens[start]? = some t ∧ kinds.accepts t.kind = true ∧ items = [.token t] ∧
        stop = start + 1 := by
  rw [Yields, toList_derivationsFrom_token]
  cases htoken : tokens[start]? with
  | none => simp
  | some t =>
    by_cases haccepts : kinds.accepts t.kind = true
    · simp [haccepts]
    · simp [haccepts]

/-- Dropping yields no items and all stops of the inner grammar. -/
theorem yields_drop_iff {inner : Grammar} :
    (drop inner).Yields tokens start items stop ↔
      items = [] ∧ ∃ dropped, inner.Yields tokens start dropped stop := by
  rw [Yields, toList_derivationsFrom_drop, List.mem_map]
  constructor
  · intro h
    obtain ⟨found, hfound, heq⟩ := h
    cases heq
    exact ⟨rfl, found.items, hfound⟩
  · intro h
    obtain ⟨hitems, dropped, hfound⟩ := h
    rw [hitems]
    exact ⟨⟨dropped, stop⟩, hfound, rfl⟩

/-- The empty sequence yields nothing and stays where it is. -/
theorem yields_seq_nil_iff :
    (seq []).Yields tokens start items stop ↔ items = [] ∧ stop = start := by
  simp [Yields, toList_derivationsFrom_seq_nil]

/-- A sequence yields what its first part and the others yield one after another. -/
theorem yields_seq_cons_iff {part : Grammar} {parts : List Grammar} :
    (seq (part :: parts)).Yields tokens start items stop ↔
      ∃ first middle others, part.Yields tokens start first middle ∧
        (seq parts).Yields tokens middle others stop ∧ items = first ++ others := by
  rw [Yields, toList_derivationsFrom_seq_cons, List.mem_flatMap]
  constructor
  · intro h
    obtain ⟨first, hfirst, hlater⟩ := h
    obtain ⟨others, hothers, heq⟩ := List.mem_map.mp hlater
    cases heq
    exact ⟨first.items, first.stop, others.items, hfirst, hothers, rfl⟩
  · intro h
    obtain ⟨first, middle, others, hfirst, hothers, hitems⟩ := h
    rw [hitems]
    have hlater := List.mem_map_of_mem (f := Derivation.after first) hothers
    exact ⟨⟨first, middle⟩, hfirst, hlater⟩

/-- An alternation yields what any alternative yields. -/
theorem yields_alt_iff {alternatives : List Grammar} :
    (alt alternatives).Yields tokens start items stop ↔
      ∃ alternative ∈ alternatives, alternative.Yields tokens start items stop := by
  rw [Yields, toList_derivationsFrom_alt, List.mem_flatMap]
  rfl

/-- A choice among nothing yields nothing. -/
theorem not_yields_first_nil : ¬(first []).Yields tokens start items stop := by
  simp [Yields, toList_derivationsFrom_first_nil]

/-- A grammar without derivations yields nothing. -/
theorem derivationsFrom_eq_nil_iff {grammar : Grammar} :
    (grammar.derivationsFrom tokens start).toList = [] ↔
      ∀ items stop, ¬grammar.Yields tokens start items stop := by
  rw [List.eq_nil_iff_forall_not_mem]
  constructor
  · intro h items stop
    exact h ⟨items, stop⟩
  · intro h found
    exact h found.items found.stop

/-- A choice by priority yields what its first alternative yields, or, if that yields nothing, what
the others yield. -/
theorem yields_first_cons_iff {alternative : Grammar} {others : List Grammar} :
    (first (alternative :: others)).Yields tokens start items stop ↔
      alternative.Yields tokens start items stop ∨
        (∀ items stop, ¬alternative.Yields tokens start items stop) ∧
          (first others).Yields tokens start items stop := by
  rw [Yields, toList_derivationsFrom_first_cons]
  split
  next hnil =>
    have hnone := derivationsFrom_eq_nil_iff.mp hnil
    rw [or_iff_right (hnone items stop), and_iff_right hnone]
    rfl
  next hsome =>
    have hnone := mt derivationsFrom_eq_nil_iff.mpr hsome
    rw [or_iff_left (fun h => hnone h.1)]
    rfl

/-- A missing field yields its mark and any stop up to the end of the message. -/
theorem yields_missing_iff {label : String} (hs : start ≤ tokens.length) :
    (missing label).Yields tokens start items stop ↔
      items = [.diagnostic label] ∧ start ≤ stop ∧ stop ≤ tokens.length := by
  rw [Yields, toList_derivationsFrom_missing, List.mem_map]
  constructor
  · intro h
    obtain ⟨taken, htaken, heq⟩ := h
    cases heq
    rw [List.mem_reverse, List.mem_range] at htaken
    exact ⟨rfl, by omega, by omega⟩
  · intro h
    obtain ⟨hitems, hstart, hstop⟩ := h
    have htaken : stop - start ∈ (List.range (tokens.length - start + 1)).reverse := by
      rw [List.mem_reverse, List.mem_range]
      omega
    refine ⟨stop - start, htaken, ?_⟩
    rw [hitems, Nat.add_sub_cancel' hstart]

/-- Tagging gives one field for clean items and leaves items with a diagnostic as they are. -/
theorem tagged_eq_iff {name : String} {found : List Item} {middle : Nat} :
    Derivation.tagged name ⟨found, middle⟩ = ⟨items, stop⟩ ↔ middle = stop ∧
      ((∀ item ∈ found, item.isDiagnostic = false) ∧
          items = [.field name (found.flatMap Item.tokens)] ∨
        (∃ item ∈ found, item.isDiagnostic = true) ∧ items = found) := by
  unfold Derivation.tagged
  by_cases hsome : ∃ item ∈ found, item.isDiagnostic = true
  · have hnone : ¬∀ item ∈ found, item.isDiagnostic = false := by simpa using hsome
    rw [if_pos (List.any_eq_true.mpr hsome), Derivation.mk.injEq, or_iff_right (fun h => hnone h.1),
      and_iff_right hsome, and_comm, eq_comm (a := found)]
  · have hnone : ∀ item ∈ found, item.isDiagnostic = false := by simpa using hsome
    rw [if_neg (mt List.any_eq_true.mp hsome), Derivation.mk.injEq,
      or_iff_left (fun h => hsome h.1), and_iff_right hnone, and_comm, eq_comm (b := items)]

/-- A tag yields a field for clean items of the inner grammar, and other items as they are. -/
theorem yields_tag_iff {name : String} {inner : Grammar} :
    (tag name inner).Yields tokens start items stop ↔
      ∃ found, inner.Yields tokens start found stop ∧
        ((∀ item ∈ found, item.isDiagnostic = false) ∧
            items = [.field name (found.flatMap Item.tokens)] ∨
          (∃ item ∈ found, item.isDiagnostic = true) ∧ items = found) := by
  rw [Yields, toList_derivationsFrom_tag, List.mem_map]
  constructor
  · intro h
    obtain ⟨found, hfound, heq⟩ := h
    obtain ⟨hstop, hitems⟩ := tagged_eq_iff.mp heq
    rw [← hstop]
    exact ⟨found.items, hfound, hitems⟩
  · intro h
    obtain ⟨found, hfound, hitems⟩ := h
    have heq := tagged_eq_iff.mpr ⟨(rfl : stop = stop), hitems⟩
    exact ⟨⟨found, stop⟩, hfound, heq⟩

end Yields

section Rules

variable (tokens : List Token)

mutual

/-- What the rules of a grammar derive from a start: items and a stop. -/
def Derives : Grammar → Passage
  | token kinds, start, items, stop =>
    ∃ t, tokens[start]? = some t ∧ kinds.accepts t.kind = true ∧ items = [.token t] ∧
      stop = start + 1
  | drop inner, start, items, stop => items = [] ∧ ∃ dropped, Derives inner start dropped stop
  | seq parts, start, items, stop => DerivesSeq parts start items stop
  | alt alternatives, start, items, stop => DerivesAlt alternatives start items stop
  | first alternatives, start, items, stop => DerivesFirst alternatives start items stop
  | repetition inner min max, start, items, stop =>
    ∃ n, min.toNat ≤ n ∧ (∀ most ∈ max, n ≤ most.toNat) ∧
      Iterations (Derives inner) min.toNat n start items stop
  | missing label, start, items, stop =>
    items = [.diagnostic label] ∧ start ≤ stop ∧ stop ≤ tokens.length
  | tag name inner, start, items, stop =>
    ∃ found, Derives inner start found stop ∧
      ((∀ item ∈ found, item.isDiagnostic = false) ∧
          items = [.field name (found.flatMap Item.tokens)] ∨
        (∃ item ∈ found, item.isDiagnostic = true) ∧ items = found)

/-- All parts derive in order, each from the stop of the one before it. -/
def DerivesSeq : List Grammar → Passage
  | [], start, items, stop => items = [] ∧ stop = start
  | part :: parts, start, items, stop =>
    ∃ first middle others, Derives part start first middle ∧
      DerivesSeq parts middle others stop ∧ items = first ++ others

/-- Some alternative derives. -/
def DerivesAlt : List Grammar → Passage
  | [], _, _, _ => False
  | alternative :: others, start, items, stop =>
    Derives alternative start items stop ∨ DerivesAlt others start items stop

/-- An alternative derives before which no alternative derives anything from the start. -/
def DerivesFirst : List Grammar → Passage
  | [], _, _, _ => False
  | alternative :: others, start, items, stop =>
    Derives alternative start items stop ∨
      (∀ items stop, ¬Derives alternative start items stop) ∧
        DerivesFirst others start items stop

end

variable {tokens} {start stop : Nat} {items : List Item}

/-- The rules fit what matching yields from every position of the message. -/
def Fits (tokens : List Token) (grammar : Grammar) : Prop :=
  ∀ start ≤ tokens.length, ∀ items stop,
    grammar.Yields tokens start items stop ↔ Derives tokens grammar start items stop

/-- The rules fit a sequence if they fit its parts. -/
theorem fits_seq {parts : List Grammar} (h : ∀ part ∈ parts, Fits tokens part) :
    Fits tokens (seq parts) := by
  intro start hs items stop
  rw [Derives]
  induction parts generalizing start items with
  | nil => rw [yields_seq_nil_iff, DerivesSeq]
  | cons part parts ih =>
    obtain ⟨hpart, hparts⟩ := List.forall_mem_cons.mp h
    rw [yields_seq_cons_iff, DerivesSeq]
    constructor
    · intro hyields
      obtain ⟨found, middle, others, hfound, hothers, hitems⟩ := hyields
      have hmiddle := (hfound.bounds hs).2
      have hfirst := (hpart start hs found middle).mp hfound
      have hlater := (ih hparts middle hmiddle others).mp hothers
      exact ⟨found, middle, others, hfirst, hlater, hitems⟩
    · intro hderives
      obtain ⟨found, middle, others, hfound, hothers, hitems⟩ := hderives
      have hfirst := (hpart start hs found middle).mpr hfound
      have hmiddle := (hfirst.bounds hs).2
      have hlater := (ih hparts middle hmiddle others).mpr hothers
      exact ⟨found, middle, others, hfirst, hlater, hitems⟩

/-- The rules fit an alternation if they fit its alternatives. -/
theorem fits_alt {alternatives : List Grammar}
    (h : ∀ alternative ∈ alternatives, Fits tokens alternative) :
    Fits tokens (alt alternatives) := by
  intro start hs items stop
  rw [Derives, yields_alt_iff]
  induction alternatives with
  | nil => simp [DerivesAlt]
  | cons alternative others ih =>
    obtain ⟨halternative, hothers⟩ := List.forall_mem_cons.mp h
    rw [DerivesAlt, List.exists_mem_cons_iff, halternative start hs, ih hothers]

/-- The rules fit a choice by priority if they fit its alternatives: since they fit in both
directions, an alternative that derives nothing also yields nothing. -/
theorem fits_first {alternatives : List Grammar}
    (h : ∀ alternative ∈ alternatives, Fits tokens alternative) :
    Fits tokens (first alternatives) := by
  intro start hs items stop
  rw [Derives]
  induction alternatives with
  | nil =>
    rw [DerivesFirst, iff_false]
    exact not_yields_first_nil
  | cons alternative others ih =>
    obtain ⟨halternative, hothers⟩ := List.forall_mem_cons.mp h
    rw [DerivesFirst, yields_first_cons_iff, ih hothers]
    simp only [halternative start hs]

/-- The rules fit a repetition if they fit its inner grammar. -/
theorem fits_repetition {inner : Grammar} (min : UInt64) (max : Option UInt64)
    (h : Fits tokens inner) : Fits tokens (repetition inner min max) := by
  intro start hs items stop
  have hforward : ∀ start items stop, start ≤ tokens.length →
      inner.Yields tokens start items stop →
      Derives tokens inner start items stop ∧ stop ≤ tokens.length := by
    intro start items stop hs hyields
    have hderives := (h start hs items stop).mp hyields
    exact ⟨hderives, (hyields.bounds hs).2⟩
  have hbackward : ∀ start items stop, start ≤ tokens.length →
      Derives tokens inner start items stop →
      inner.Yields tokens start items stop ∧ stop ≤ tokens.length := by
    intro start items stop hs hderives
    have hyields := (h start hs items stop).mpr hderives
    exact ⟨hyields, (hyields.bounds hs).2⟩
  rw [Derives, yields_repetition_iff]
  constructor
  · intro hyields
    obtain ⟨n, hleast, hgreatest, hrun⟩ := hyields
    exact ⟨n, hleast, hgreatest, hrun.imp hforward hs⟩
  · intro hderives
    obtain ⟨n, hleast, hgreatest, hrun⟩ := hderives
    exact ⟨n, hleast, hgreatest, hrun.imp hbackward hs⟩

/-- Matching finds every derivation that the rules allow from a position of the message, and no
other. -/
theorem mem_derivationsFrom_iff_derives (grammar : Grammar) (hs : start ≤ tokens.length) :
    (⟨items, stop⟩ : Derivation) ∈ (grammar.derivationsFrom tokens start).toList ↔
      Derives tokens grammar start items stop := by
  suffices hfits : Fits tokens grammar from hfits start hs items stop
  induction grammar with
  | token kinds =>
    intro start _ items stop
    rw [yields_token_iff, Derives]
  | drop inner ih =>
    intro start hs items stop
    rw [yields_drop_iff, Derives]
    simp only [ih start hs]
  | seq parts ih => exact fits_seq ih
  | alt alternatives ih => exact fits_alt ih
  | first alternatives ih => exact fits_first ih
  | repetition inner min max ih => exact fits_repetition min max ih
  | missing label =>
    intro start hs items stop
    rw [yields_missing_iff hs, Derives]
  | tag name inner ih =>
    intro start hs items stop
    rw [yields_tag_iff, Derives]
    simp only [ih start hs]

/-- Behind a delimiter, two words are no number but a name. -/
theorem name_derived_behind_delimiter :
    1 ≤ [Token.delimiter ',', .word "Ann", .word "Lee"].length ∧
      (⟨[.field "name" [.word "Ann", .word "Lee"]], 3⟩ : Derivation) ∈
        ((first [number, tag "name" (repetition word 1 none)]).derivationsFrom
          [.delimiter ',', .word "Ann", .word "Lee"] 1).toList := by
  refine ⟨by decide, (mem_derivationsFrom_iff_derives _ (by decide)).mpr ?_⟩
  have hnumber : ∀ items stop, ¬Derives [.delimiter ',', .word "Ann", .word "Lee"] number 1
      items stop := by
    intro items stop hderives
    obtain ⟨t, htoken, haccepts, -⟩ := hderives
    have ht : Token.word "Ann" = t := by simpa using htoken
    rw [← ht] at haccepts
    exact absurd haccepts (by decide)
  have hann : Derives [.delimiter ',', .word "Ann", .word "Lee"] word 1
      [.token (.word "Ann")] 2 := ⟨.word "Ann", rfl, rfl, rfl, rfl⟩
  have hlee : Derives [.delimiter ',', .word "Ann", .word "Lee"] word 2
      [.token (.word "Lee")] 3 := ⟨.word "Lee", rfl, rfl, rfl, rfl⟩
  have hwords : Iterations (Derives [.delimiter ',', .word "Ann", .word "Lee"] word) 1 2 1
      [.token (.word "Ann"), .token (.word "Lee")] 3 :=
    .more hann (.inl Nat.one_pos) (.more hlee (.inr (Nat.lt_succ_self 2)) (.none 0 3))
  have hclean : ∀ item ∈ [Item.token (.word "Ann"), .token (.word "Lee")],
      item.isDiagnostic = false := by simp [Item.isDiagnostic]
  exact .inr ⟨hnumber, .inl ⟨_, ⟨2, by decide, by simp, hwords⟩, .inl ⟨hclean, rfl⟩⟩⟩

end Rules

end Grammar

end MessageGrammar
