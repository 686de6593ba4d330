import MessageGrammar.Proofs.Derivability
import MessageGrammar.Proofs.Selection

/-!
# Coverage

Which stretches of a message a grammar spans is said here without items, without order and without
a rule for iterations that take nothing. The kind of an outcome depends only on whether the grammar
spans the whole message, and whether it does so without a mark for a missing field: what a
repetition passes over is never needed, since iterations that take nothing can be left out of a
chain as long as the least count is met.
-/

namespace MessageGrammar

/-- `n` steps lead from a position to another one; each may stay where it is. -/
inductive Chain (step : Nat → Nat → Prop) : Nat → Nat → Nat → Prop
  /-- No step stays where it is. -/
  | none (start : Nat) : Chain step 0 start start
  /-- A step and the ones after it. -/
  | more {n start middle stop : Nat} (first : step start middle)
      (later : Chain step n middle stop) : Chain step (n + 1) start stop

/-- If marks are not wanted, there is none among the items. -/
def Allowed (clean : Bool) (items : List Item) : Prop :=
  clean = true → ∀ item ∈ items, item.isDiagnostic = false

/-- All items are allowed if marks are. -/
theorem allowed_false (items : List Item) : Allowed false items :=
  fun h => absurd h Bool.false_ne_true

/-- No items hold no mark. -/
theorem allowed_nil (clean : Bool) : Allowed clean [] :=
  fun _ _ h => absurd h List.not_mem_nil

/-- Items are allowed together if they are in both parts. -/
theorem allowed_append {clean : Bool} {first others : List Item} :
    Allowed clean (first ++ others) ↔ Allowed clean first ∧ Allowed clean others := by
  simp only [Allowed, List.forall_mem_append]
  exact forall_and

/-- Something leads from a position to another one, without marks if these are not wanted. -/
def Leads (passage : Passage) (clean : Bool) (start stop : Nat) : Prop :=
  ∃ items, passage start items stop ∧ Allowed clean items

/-- A chain leads over other steps as well if these are possible wherever it comes. -/
theorem Chain.imp {step other : Nat → Nat → Prop} {reached : Nat → Prop}
    (h : ∀ start stop, reached start → step start stop → other start stop ∧ reached stop)
    {n start stop : Nat} (hs : reached start) (hrun : Chain step n start stop) :
    Chain other n start stop := by
  induction hrun with
  | none => exact .none _
  | more hfirst _ ih =>
    obtain ⟨hother, hmiddle⟩ := h _ _ hs hfirst
    exact .more hother (ih hmiddle)

/-- Chains lead over the same stretches if their steps are the same wherever they come. -/
theorem chain_congr {step other : Nat → Nat → Prop} {reached : Nat → Prop}
    (hsame : ∀ start stop, reached start → (step start stop ↔ other start stop))
    (hkept : ∀ start stop, reached start → step start stop → reached stop)
    {n start stop : Nat} (hs : reached start) :
    Chain step n start stop ↔ Chain other n start stop := by
  constructor
  · apply Chain.imp _ hs
    intro start stop hs hstep
    exact ⟨(hsame start stop hs).mp hstep, hkept start stop hs hstep⟩
  · apply Chain.imp _ hs
    intro start stop hs hother
    have hstep := (hsame start stop hs).mpr hother
    exact ⟨hstep, hkept start stop hs hstep⟩

/-- A chain without the steps that stay where they are is a run of iterations. The first `free`
steps are kept in any case, so that a chain with enough steps leaves enough of them. -/
theorem Chain.exists_iterations {passage : Passage} {clean : Bool}
    (hforward : ∀ start items stop, passage start items stop → start ≤ stop) {n start stop : Nat}
    (hrun : Chain (Leads passage clean) n start stop) (free : Nat) (hfree : free ≤ n) :
    ∃ m items, free ≤ m ∧ m ≤ n ∧ Iterations passage free m start items stop ∧
      Allowed clean items := by
  induction hrun generalizing free with
  | none start =>
    obtain rfl := Nat.le_zero.mp hfree
    exact ⟨0, [], Nat.le_refl 0, Nat.le_refl 0, .none 0 start, allowed_nil clean⟩
  | @more n start middle stop hfirst _ ih =>
    obtain ⟨first, hpassage, hallowed⟩ := hfirst
    obtain ⟨m, others, hleast, hmost, hlater, hothers⟩ := ih (free - 1) (by omega)
    have hboth := allowed_append.mpr ⟨hallowed, hothers⟩
    have hmore : 0 < free ∨ start < middle → ∃ m items, free ≤ m ∧ m ≤ n + 1 ∧
        Iterations passage free m start items stop ∧ Allowed clean items := by
      intro hmoves
      exact ⟨m + 1, first ++ others, by omega, by omega, .more hpassage hmoves hlater, hboth⟩
    rcases Nat.eq_zero_or_pos free with rfl | hpos
    · rcases Nat.eq_or_lt_of_le (hforward _ _ _ hpassage) with rfl | hlt
      · -- a step that is neither counted nor moves is left out
        exact ⟨m, others, hleast, by omega, hlater, hothers⟩
      · exact hmore (.inr hlt)
    · exact hmore (.inl hpos)

/-- A run of iterations is a chain. -/
theorem Iterations.chain {passage : Passage} {clean : Bool} {free n start stop : Nat}
    {items : List Item} (hrun : Iterations passage free n start items stop)
    (hallowed : Allowed clean items) : Chain (Leads passage clean) n start stop := by
  induction hrun with
  | none => exact .none _
  | more iteration _ _ ih =>
    obtain ⟨hfirst, hothers⟩ := allowed_append.mp hallowed
    exact .more ⟨_, iteration, hfirst⟩ (ih hothers)

namespace Grammar

/-- A repetition leads where chains of its inner grammar with a count within its bounds lead: an
iteration that takes no token beyond the least count is passed over, and the rest of its chain leads
as far without it. -/
theorem leads_repetition_iff {inner : Grammar} {min : UInt64} {max : Option UInt64}
    {tokens : List Token} {clean : Bool} {start stop : Nat} :
    Leads ((repetition inner min max).Yields tokens) clean start stop ↔
      ∃ n, min.toNat ≤ n ∧ (∀ most ∈ max, n ≤ most.toNat) ∧
        Chain (Leads (inner.Yields tokens) clean) n start stop := by
  simp only [Leads, yields_repetition_iff]
  constructor
  · intro hyields
    obtain ⟨items, ⟨n, hleast, hgreatest, hrun⟩, hallowed⟩ := hyields
    exact ⟨n, hleast, hgreatest, hrun.chain hallowed⟩
  · intro hchain
    obtain ⟨n, hleast, hgreatest, hrun⟩ := hchain
    have hforward : ∀ start items stop, inner.Yields tokens start items stop → start ≤ stop :=
      fun _ _ _ hyields => (bounds_of_mem_derivationsFrom hyields).1
    obtain ⟨m, items, hm, hmn, hiterations, hallowed⟩ :=
      hrun.exists_iterations hforward min.toNat hleast
    have hfits : ∀ most ∈ max, m ≤ most.toNat :=
      fun most hmost => Nat.le_trans hmn (hgreatest most hmost)
    exact ⟨items, ⟨m, hm, hfits, hiterations⟩, hallowed⟩

section Spans

variable (tokens : List Token)

mutual

/-- The stretches of a message that a grammar spans; the clean ones among them do without marks for
missing fields, except where all items are dropped. -/
def Spans : Grammar → Bool → Nat → Nat → Prop
  | token kinds, _, start, stop =>
    ∃ t, tokens[start]? = some t ∧ kinds.accepts t.kind = true ∧ stop = start + 1
  | drop inner, _, start, stop => Spans inner false start stop
  | seq parts, clean, start, stop => SpansSeq parts clean start stop
  | alt alternatives, clean, start, stop => SpansAlt alternatives clean start stop
  | first alternatives, clean, start, stop => SpansFirst alternatives clean start stop
  | repetition inner min max, clean, start, stop =>
    ∃ n, min.toNat ≤ n ∧ (∀ most ∈ max, n ≤ most.toNat) ∧ Chain (Spans inner clean) n start stop
  | missing _, clean, start, stop => clean = false ∧ start ≤ stop ∧ stop ≤ tokens.length
  | tag _ inner, clean, start, stop => Spans inner clean start stop

/-- The parts span stretches one after another. -/
def SpansSeq : List Grammar → Bool → Nat → Nat → Prop
  | [], _, start, stop => stop = start
  | part :: parts, clean, start, stop =>
    ∃ middle, Spans part clean start middle ∧ SpansSeq parts clean middle stop

/-- Some alternative spans the stretch. -/
def SpansAlt : List Grammar → Bool → Nat → Nat → Prop
  | [], _, _, _ => False
  | alternative :: others, clean, start, stop =>
    Spans alternative clean start stop ∨ SpansAlt others clean start stop

/-- The earliest alternative that spans anything from the start, clean or not, spans the
stretch. -/
def SpansFirst : List Grammar → Bool → Nat → Nat → Prop
  | [], _, _, _ => False
  | alternative :: others, clean, start, stop =>
    (∃ other, Spans alternative false start other) ∧ Spans alternative clean start stop ∨
      (¬∃ other, Spans alternative false start other) ∧ SpansFirst others clean start stop

end

variable {tokens}

/-- Spans are the stretches of what matching yields from the positions of the message. -/
def Covered (tokens : List Token) (grammar : Grammar) : Prop :=
  ∀ clean, ∀ start ≤ tokens.length, ∀ stop, Spans tokens grammar clean start stop ↔
    ∃ items, grammar.Yields tokens start items stop ∧ Allowed clean items

/-- Without regard to marks, a span is a stretch of anything yielded. -/
theorem Covered.spans_false_iff {grammar : Grammar} (h : Covered tokens grammar)
    {start stop : Nat} (hs : start ≤ tokens.length) :
    Spans tokens grammar false start stop ↔ ∃ items, grammar.Yields tokens start items stop := by
  rw [h false start hs stop]
  simp only [allowed_false, and_true]

/-- A class spans the token it yields. -/
theorem covered_token (kinds : TokenClass) : Covered tokens (token kinds) := by
  intro clean start _ stop
  rw [Spans]
  constructor
  · intro hspans
    obtain ⟨t, htoken, haccepts, hstop⟩ := hspans
    have hyields := yields_token_iff.mpr ⟨t, htoken, haccepts, rfl, hstop⟩
    refine ⟨[.token t], hyields, ?_⟩
    intro _ item hitem
    rw [List.mem_singleton.mp hitem]
    rfl
  · intro hyields
    obtain ⟨items, hyields, -⟩ := hyields
    obtain ⟨t, htoken, haccepts, -, hstop⟩ := yields_token_iff.mp hyields
    exact ⟨t, htoken, haccepts, hstop⟩

/-- Dropped items hold no marks, so that every span of the inner grammar is clean. -/
theorem covered_drop {inner : Grammar} (h : Covered tokens inner) :
    Covered tokens (drop inner) := by
  intro clean start hs stop
  rw [Spans, h.spans_false_iff hs]
  constructor
  · intro hspans
    obtain ⟨dropped, hyields⟩ := hspans
    have hdrop := yields_drop_iff.mpr ⟨(rfl : [] = []), dropped, hyields⟩
    exact ⟨[], hdrop, allowed_nil clean⟩
  · intro hyields
    obtain ⟨items, hyields, -⟩ := hyields
    exact (yields_drop_iff.mp hyields).2

/-- A sequence spans the stretches of its parts one after another. -/
theorem covered_seq {parts : List Grammar} (h : ∀ part ∈ parts, Covered tokens part) :
    Covered tokens (seq parts) := by
  intro clean start hs stop
  rw [Spans]
  induction parts generalizing start with
  | nil =>
    simp only [SpansSeq, yields_seq_nil_iff]
    constructor
    · intro hstop
      exact ⟨[], ⟨rfl, hstop⟩, allowed_nil clean⟩
    · intro hyields
      obtain ⟨_, ⟨-, hstop⟩, -⟩ := hyields
      exact hstop
  | cons part parts ih =>
    obtain ⟨hpart, hparts⟩ := List.forall_mem_cons.mp h
    rw [SpansSeq]
    constructor
    · intro hspans
      obtain ⟨middle, hfirst, hlater⟩ := hspans
      obtain ⟨found, hfound, hallowed⟩ := (hpart clean start hs middle).mp hfirst
      have hmiddle := (hfound.bounds hs).2
      obtain ⟨others, hothers, hallowed'⟩ := (ih hparts middle hmiddle).mp hlater
      have hyields := yields_seq_cons_iff.mpr ⟨found, middle, others, hfound, hothers, rfl⟩
      exact ⟨found ++ others, hyields, allowed_append.mpr ⟨hallowed, hallowed'⟩⟩
    · intro hyields
      obtain ⟨items, hyields, hallowed⟩ := hyields
      obtain ⟨found, middle, others, hfound, hothers, hitems⟩ := yields_seq_cons_iff.mp hyields
      rw [hitems] at hallowed
      have hboth := allowed_append.mp hallowed
      have hmiddle := (hfound.bounds hs).2
      have hfirst := (hpart clean start hs middle).mpr ⟨found, hfound, hboth.1⟩
      have hlater := (ih hparts middle hmiddle).mpr ⟨others, hothers, hboth.2⟩
      exact ⟨middle, hfirst, hlater⟩

/-- An alternation spans the stretches of its alternatives. -/
theorem covered_alt {alternatives : List Grammar}
    (h : ∀ alternative ∈ alternatives, Covered tokens alternative) :
    Covered tokens (alt alternatives) := by
  intro clean start hs stop
  rw [Spans]
  simp only [yields_alt_iff]
  induction alternatives with
  | nil => simp [SpansAlt]
  | cons alternative others ih =>
    obtain ⟨halternative, hothers⟩ := List.forall_mem_cons.mp h
    rw [SpansAlt, halternative clean start hs, ih hothers]
    simp only [List.exists_mem_cons_iff, or_and_right, exists_or]

/-- A choice by priority spans the stretches of the alternative it commits to: an alternative yields
nothing exactly if it spans nothing at all, clean or not. -/
theorem covered_first {alternatives : List Grammar}
    (h : ∀ alternative ∈ alternatives, Covered tokens alternative) :
    Covered tokens (first alternatives) := by
  intro clean start hs stop
  rw [Spans]
  induction alternatives with
  | nil => simp [SpansFirst, not_yields_first_nil]
  | cons alternative others ih =>
    obtain ⟨halternative, hothers⟩ := List.forall_mem_cons.mp h
    have hsome : (∃ other, Spans tokens alternative false start other) ↔
        ¬∀ items stop, ¬alternative.Yields tokens start items stop := by
      simp only [halternative.spans_false_iff hs, not_forall, not_not]
      exact exists_comm
    rw [SpansFirst, hsome, not_not, halternative clean start hs, ih hothers]
    simp only [yields_first_cons_iff]
    constructor
    · intro hspans
      rcases hspans with ⟨-, items, hyields, hallowed⟩ | ⟨hnone, items, hyields, hallowed⟩
      · exact ⟨items, .inl hyields, hallowed⟩
      · exact ⟨items, .inr ⟨hnone, hyields⟩, hallowed⟩
    · intro hyields
      obtain ⟨items, hyields, hallowed⟩ := hyields
      rcases hyields with hyields | ⟨hnone, hyields⟩
      · left
        refine ⟨?_, items, hyields, hallowed⟩
        intro hnone
        exact hnone items stop hyields
      · exact .inr ⟨hnone, items, hyields, hallowed⟩

/-- A repetition spans the chains of stretches of its inner grammar with a count within its
bounds. -/
theorem covered_repetition {inner : Grammar} (min : UInt64) (max : Option UInt64)
    (h : Covered tokens inner) : Covered tokens (repetition inner min max) := by
  intro clean start hs stop
  have hsame : ∀ start stop, start ≤ tokens.length →
      (Spans tokens inner clean start stop ↔ Leads (inner.Yields tokens) clean start stop) :=
    fun start stop hs => h clean start hs stop
  have hkept : ∀ start stop, start ≤ tokens.length → Spans tokens inner clean start stop →
      stop ≤ tokens.length := by
    intro start stop hs hspans
    obtain ⟨items, hyields, -⟩ := (hsame start stop hs).mp hspans
    exact (hyields.bounds hs).2
  simp only [Spans, chain_congr hsame hkept hs]
  exact leads_repetition_iff.symm

/-- A missing field spans every stretch, but none cleanly. -/
theorem covered_missing (label : String) : Covered tokens (missing label) := by
  intro clean start hs stop
  simp only [Spans, yields_missing_iff hs]
  constructor
  · intro hspans
    obtain ⟨hclean, hbounds⟩ := hspans
    rw [hclean]
    exact ⟨_, ⟨rfl, hbounds⟩, allowed_false _⟩
  · intro hyields
    obtain ⟨items, ⟨hitems, hbounds⟩, hallowed⟩ := hyields
    refine ⟨?_, hbounds⟩
    cases clean with
    | false => rfl
    | true =>
      rw [hitems] at hallowed
      have hmark := hallowed rfl _ (List.mem_singleton_self _)
      exact absurd hmark (by simp [Item.isDiagnostic])

/-- A tag spans the stretches of its inner grammar, and cleanly those without marks: a field holds
none, and what is passed through is unchanged. -/
theorem covered_tag (name : String) {inner : Grammar} (h : Covered tokens inner) :
    Covered tokens (tag name inner) := by
  intro clean start hs stop
  rw [Spans, h clean start hs stop]
  simp only [yields_tag_iff]
  constructor
  · intro hyields
    obtain ⟨found, hyields, hallowed⟩ := hyields
    by_cases hnone : ∀ item ∈ found, item.isDiagnostic = false
    · refine ⟨_, ⟨found, hyields, .inl ⟨hnone, rfl⟩⟩, ?_⟩
      intro _ item hitem
      rw [List.mem_singleton.mp hitem]
      rfl
    · have hsome : ∃ item ∈ found, item.isDiagnostic = true := by simpa using hnone
      exact ⟨found, ⟨found, hyields, .inr ⟨hsome, rfl⟩⟩, hallowed⟩
  · intro htagged
    obtain ⟨items, ⟨found, hyields, hitems⟩, hallowed⟩ := htagged
    rcases hitems with ⟨hnone, -⟩ | ⟨-, hitems⟩
    · exact ⟨found, hyields, fun _ => hnone⟩
    · rw [hitems] at hallowed
      exact ⟨found, hyields, hallowed⟩

/-- A grammar spans exactly the stretches of what matching yields. -/
theorem covered (grammar : Grammar) : Covered tokens grammar := by
  induction grammar with
  | token kinds => exact covered_token kinds
  | drop inner ih => exact covered_drop ih
  | seq parts ih => exact covered_seq ih
  | alt alternatives ih => exact covered_alt ih
  | first alternatives ih => exact covered_first ih
  | repetition inner min max ih => exact covered_repetition min max ih
  | missing label => exact covered_missing label
  | tag name inner ih => exact covered_tag name ih

end Spans

/-- Complete derivations are those from the first position that stop behind the last token. -/
theorem mem_explain_iff {grammar : Grammar} {tokens : List Token} {items : List Item} {stop : Nat} :
    (⟨items, stop⟩ : Derivation) ∈ grammar.explain tokens ↔
      grammar.Yields tokens 0 items tokens.length ∧ stop = tokens.length := by
  rw [explain, complete, Enumeration.toList_filter, List.mem_filter, decide_eq_true_eq]
  apply and_congr_left
  intro hstop
  rw [Yields, derivations, ← hstop]

/-- The kind of an outcome: there is no match exactly if the grammar does not span the whole
message, and a match exactly if it spans the whole message cleanly. -/
theorem parse_kind_iff_spans (grammar : Grammar) (tokens : List Token) :
    (grammar.parse tokens = .noMatch ↔ ¬Spans tokens grammar false 0 tokens.length) ∧
      ((grammar.parse tokens).isMatch = true ↔ Spans tokens grammar true 0 tokens.length) := by
  have hcovered : Covered tokens grammar := covered grammar
  constructor
  · rw [parse_eq_noMatch_iff, hcovered.spans_false_iff (Nat.zero_le _),
      List.eq_nil_iff_forall_not_mem, not_exists]
    constructor
    · intro hnone items hyields
      have hmem := mem_explain_iff.mpr ⟨hyields, (rfl : tokens.length = tokens.length)⟩
      exact hnone _ hmem
    · intro hnone derivation hd
      have hyields := (mem_explain_iff.mp hd).1
      exact hnone derivation.items hyields
  · rw [isMatch_parse_iff, hcovered true 0 (Nat.zero_le _)]
    constructor
    · intro hmatch
      obtain ⟨derivation, hd, hclean⟩ := hmatch
      have hyields := (mem_explain_iff.mp hd).1
      exact ⟨derivation.items, hyields, fun _ => hclean⟩
    · intro hspans
      obtain ⟨items, hyields, hallowed⟩ := hspans
      have hmem := mem_explain_iff.mpr ⟨hyields, (rfl : tokens.length = tokens.length)⟩
      exact ⟨_, hmem, hallowed rfl⟩

end Grammar

end MessageGrammar
