import MessageGrammar.Proofs.OutcomesByPart
import MessageGrammar.Proofs.RepetitionCounts

/-!
# Sieves

A sieve is a repetition without bounds over some classes of tokens, each of them kept or dropped.
The classes may overlap, so that a message has a complete derivation for every way to choose a class
for each of its tokens. Since the repetition is greedy and the alternatives are tried in order, the
derivation that comes first has chosen the first class that accepts, for every token; and since no
field can be missing, it is the match.
-/

namespace MessageGrammar

namespace Grammar

section Unbounded

variable {inner : Grammar} {tokens : List Token} {start : Nat}

/-- Without bounds, the number of iterations so far makes no difference. -/
theorem iterated_unbounded (count count' position : Nat) :
    inner.iterated 0 none tokens count position = inner.iterated 0 none tokens count' position := by
  induction count, position using iterated.induct inner 0 none tokens generalizing count' with
  | case1 count position ih =>
    have hsteps : inner.stepsAt none tokens count' position =
        inner.stepsAt none tokens count position := by simp [stepsAt]
    rw [iterated_eq, iterated_eq count', hsteps]
    congr 1
    apply List.flatMap_congr
    intro step hstep
    by_cases hstays : step.stop = position
    · rw [if_pos ⟨Nat.zero_le count, hstays⟩, if_pos ⟨Nat.zero_le count', hstays⟩]
    · have hlater := ih step hstep (fun h => hstays h.2) (count' + 1)
      rw [if_neg (fun h => hstays h.2), if_neg (fun h => hstays h.2), hlater]

/-- A repetition without bounds, of a grammar that takes a token wherever it matches: the grammar
with the repetition behind it, and at last nothing. -/
theorem toList_derivationsFrom_unbounded
    (hmoves : ∀ found ∈ (inner.derivationsFrom tokens start).toList, found.stop ≠ start) :
    ((inner.repeated .unlimited .unlimited).derivationsFrom tokens start).toList =
      ((seq [inner, inner.repeated .unlimited .unlimited]).derivationsFrom tokens start).toList ++
        ((seq []).derivationsFrom tokens start).toList := by
  have hlist : ∀ position,
      ((inner.repeated .unlimited .unlimited).derivationsFrom tokens position).toList =
        inner.iterated 0 none tokens 0 position :=
    fun position => toList_derivationsFrom_repetition inner 0 none tokens position
  have hsteps : inner.stepsAt none tokens 0 start =
      (inner.derivationsFrom tokens start).toList := by simp [stepsAt]
  rw [hlist, iterated_eq, hsteps, toList_derivationsFrom_seq_cons, toList_derivationsFrom_seq_nil,
    if_pos (Nat.zero_le 0)]
  congr 1
  apply List.flatMap_congr
  intro found hfound
  rw [if_neg (fun h => hmoves found hfound h.2), equivalent_seq_singleton, hlist,
    iterated_unbounded (0 + 1) 0]

/-- A repetition without bounds says the best of what is said by a first iteration with the
repetition behind it, or understands the end of the message. -/
theorem outcomeFrom_unbounded
    (hmoves : ∀ found ∈ (inner.derivationsFrom tokens start).toList, found.stop ≠ start) :
    (inner.repeated .unlimited .unlimited).outcomeFrom tokens start =
      (Outcome.best ((inner.derivationsFrom tokens start).toList.map fun found =>
          ((inner.repeated .unlimited .unlimited).outcomeFrom tokens found.stop).behind
            found.items)).orBetter
        (if start = tokens.length then .matched [] else .noMatch) := by
  have hlater : ∀ position,
      (seq [inner.repeated .unlimited .unlimited]).outcomeFrom tokens position =
        (inner.repeated .unlimited .unlimited).outcomeFrom tokens position :=
    fun position => (equivalent_seq_singleton _).outcomeFrom_eq
  rw [outcomeFrom, toList_derivationsFrom_unbounded hmoves, List.filter_append, List.map_append,
    Outcome.best_append, ← outcomeFrom, ← outcomeFrom, outcomeFrom_seq_cons, outcomeFrom_seq_nil]
  simp only [hlater]

end Unbounded

/-- A class of tokens, kept or dropped. -/
inductive Pick : Grammar → Prop
  /-- The token of the class is an item. -/
  | kept (kinds : TokenClass) : Pick (token kinds)
  /-- The token of the class is left out. -/
  | dropped (kinds : TokenClass) : Pick (drop (token kinds))

/-- Whether a class, kept or dropped, accepts a token; other grammars do not count. -/
def accepts : Grammar → Token → Bool
  | token kinds, t => kinds.accepts t.kind
  | drop (token kinds), t => kinds.accepts t.kind
  | _, _ => false

/-- Whether the grammar leaves out what it takes. -/
def isDrop : Grammar → Bool
  | drop _ => true
  | _ => false

/-- What a class, kept or dropped, makes of a token that it accepts. -/
def image (grammar : Grammar) (t : Token) : List Item :=
  if grammar.isDrop then [] else [.token t]

/-- Whether the first of some alternatives that accepts a token keeps it. -/
def retains (alternatives : List Grammar) (t : Token) : Bool :=
  (alternatives.find? fun alternative => alternative.accepts t).any fun chosen => !chosen.isDrop

/-- What a sieve says about some tokens: there is no match if one of them is accepted by no
alternative, else the tokens that are kept by the first alternative that accepts them. -/
def sifted (alternatives : List Grammar) (tokens : List Token) : Outcome :=
  if ∃ t ∈ tokens, ∀ alternative ∈ alternatives, alternative.accepts t = false then .noMatch
  else .matched ((tokens.filter (retains alternatives)).map .token)

variable {alternatives : List Grammar} {tokens : List Token} {start : Nat} {t : Token}

/-- What is sifted is a match or none. -/
theorem sifted_cases (alternatives : List Grammar) (tokens : List Token) :
    sifted alternatives tokens = .noMatch ∨
      ∃ items, sifted alternatives tokens = .matched items := by
  unfold sifted
  split
  · exact .inl rfl
  · exact .inr ⟨_, rfl⟩

/-- The first token goes to the first alternative that accepts it. -/
theorem sifted_cons (alternatives : List Grammar) (t : Token) (tokens : List Token) :
    sifted alternatives (t :: tokens) =
      match alternatives.find? fun alternative => alternative.accepts t with
      | some chosen => (sifted alternatives tokens).behind (chosen.image t)
      | none => .noMatch := by
  cases hfind : alternatives.find? fun alternative => alternative.accepts t with
  | none =>
    have hnone : ∀ alternative ∈ alternatives, alternative.accepts t = false := by
      simpa using List.find?_eq_none.mp hfind
    exact if_pos ⟨t, List.mem_cons_self, hnone⟩
  | some chosen =>
    have haccepts := List.find?_some hfind
    have hmem : chosen ∈ alternatives := List.mem_of_find?_eq_some hfind
    have hretains : retains alternatives t = !chosen.isDrop := by simp [retains, hfind]
    have hfirst : ¬∀ alternative ∈ alternatives, alternative.accepts t = false := by
      intro hnone
      exact absurd (hnone chosen hmem) (by simp [haccepts])
    have hreject :
        (∃ t' ∈ t :: tokens, ∀ alternative ∈ alternatives, alternative.accepts t' = false) ↔
          ∃ t' ∈ tokens, ∀ alternative ∈ alternatives, alternative.accepts t' = false := by
      rw [List.exists_mem_cons_iff, or_iff_right hfirst]
    dsimp only
    rw [sifted, sifted, if_congr hreject rfl rfl, List.filter_cons, hretains]
    split
    · rfl
    · cases hdrop : chosen.isDrop <;>
        simp [Outcome.behind, image, hdrop, Diagnostic.find?]

/-- A class, kept or dropped, takes a token that it accepts. -/
theorem Pick.toList_derivationsFrom {grammar : Grammar} (h : grammar.Pick)
    (htoken : tokens[start]? = some t) :
    (grammar.derivationsFrom tokens start).toList =
      if grammar.accepts t then [⟨grammar.image t, start + 1⟩] else [] := by
  cases h with
  | kept kinds =>
    rw [toList_derivationsFrom_token, htoken]
    rfl
  | dropped kinds =>
    rw [toList_derivationsFrom_drop, toList_derivationsFrom_token, htoken]
    dsimp only
    rw [apply_ite (List.map Derivation.dropItems)]
    rfl

/-- Behind the last token, a class takes nothing. -/
theorem Pick.toList_derivationsFrom_eq_nil {grammar : Grammar} (h : grammar.Pick)
    (hend : tokens[start]? = none) : (grammar.derivationsFrom tokens start).toList = [] := by
  cases h with
  | kept kinds => rw [toList_derivationsFrom_token, hend]
  | dropped kinds =>
    rw [toList_derivationsFrom_drop, toList_derivationsFrom_token, hend]
    rfl

/-- Some classes, kept or dropped, as alternatives take a token in one way for each of them that
accepts it. -/
theorem toList_derivationsFrom_picks (h : ∀ alternative ∈ alternatives, alternative.Pick)
    (htoken : tokens[start]? = some t) :
    ((alt alternatives).derivationsFrom tokens start).toList =
      (alternatives.filter fun alternative => alternative.accepts t).map
        fun alternative => ⟨alternative.image t, start + 1⟩ := by
  rw [toList_derivationsFrom_alt]
  induction alternatives with
  | nil => rfl
  | cons alternative alternatives ih =>
    obtain ⟨hfirst, hothers⟩ := List.forall_mem_cons.mp h
    rw [List.flatMap_cons, hfirst.toList_derivationsFrom htoken, ih hothers, List.filter_cons]
    split <;> rfl

/-- Behind the last token, alternatives of classes take nothing. -/
theorem toList_derivationsFrom_picks_eq_nil (h : ∀ alternative ∈ alternatives, alternative.Pick)
    (hend : tokens[start]? = none) :
    ((alt alternatives).derivationsFrom tokens start).toList = [] := by
  rw [toList_derivationsFrom_alt, List.flatMap_eq_nil_iff]
  exact fun alternative hmem => (h alternative hmem).toList_derivationsFrom_eq_nil hend

/-- Of several choices for a token in front of the same outcome the first is the best, if that is no
diagnostic: either all of them make a match or none. -/
theorem best_map_behind_image {outcome : Outcome}
    (h : outcome = .noMatch ∨ ∃ items, outcome = .matched items) (choices : List Grammar)
    (t : Token) :
    Outcome.best (choices.map fun choice => outcome.behind (choice.image t)) =
      match choices.head? with
      | some chosen => outcome.behind (chosen.image t)
      | none => .noMatch := by
  cases choices with
  | nil => rfl
  | cons chosen choices =>
    rw [List.map_cons, Outcome.best_cons]
    rcases h with rfl | ⟨items, rfl⟩
    · simp only [Outcome.noMatch_behind, Outcome.noMatch_orBetter, List.head?_cons]
      exact Outcome.best_eq_noMatch_iff.mpr (by simp)
    · have hclean : Diagnostic.find? 0 (chosen.image t) = none := by
        unfold image
        split <;> rfl
      simp [Outcome.behind, hclean, Outcome.orBetter]

/-- From every position on, a sieve sifts the tokens that are left. -/
theorem outcomeFrom_sieve (h : ∀ alternative ∈ alternatives, alternative.Pick)
    (hs : start ≤ tokens.length) :
    ((alt alternatives).repeated .unlimited .unlimited).outcomeFrom tokens start =
      sifted alternatives (tokens.drop start) := by
  induction hahead : tokens.drop start generalizing start with
  | nil =>
    have hlength : tokens.length ≤ start := List.drop_eq_nil_iff.mp hahead
    have hnone := toList_derivationsFrom_picks_eq_nil h (List.getElem?_eq_none hlength)
    rw [outcomeFrom_unbounded (by simp [hnone]), hnone, if_pos (Nat.le_antisymm hs hlength)]
    simp [Outcome.best, sifted]
  | cons t rest ih =>
    have hlt : start < tokens.length := by
      by_contra hge
      rw [List.drop_eq_nil_of_le (Nat.not_lt.mp hge)] at hahead
      exact List.cons_ne_nil _ _ hahead.symm
    rw [List.drop_eq_getElem_cons hlt] at hahead
    obtain ⟨ht, hrest⟩ := List.cons.inj hahead
    have htoken : tokens[start]? = some t := by rw [List.getElem?_eq_getElem hlt, ht]
    have hchoices := toList_derivationsFrom_picks h htoken
    have hmoves : ∀ found ∈ ((alt alternatives).derivationsFrom tokens start).toList,
        found.stop ≠ start := by
      intro found hfound
      rw [hchoices] at hfound
      obtain ⟨alternative, -, rfl⟩ := List.mem_map.mp hfound
      exact Nat.succ_ne_self start
    have hlater := ih hlt hrest
    rw [outcomeFrom_unbounded hmoves, if_neg (Nat.ne_of_lt hlt), Outcome.orBetter_noMatch, hchoices,
      List.map_map, sifted_cons, ← List.head?_filter,
      ← best_map_behind_image (sifted_cases alternatives rest), ← hlater]
    rfl

/-- A repetition without bounds over classes, kept or dropped, matches the messages whose tokens are
all accepted by some class, and no others; the match has the tokens that the first class to accept
them keeps, in their order. -/
theorem parse_sieve (h : ∀ alternative ∈ alternatives, alternative.Pick) (tokens : List Token) :
    ((alt alternatives).repeated .unlimited .unlimited).parse tokens =
      if ∃ t ∈ tokens, ∀ alternative ∈ alternatives, alternative.accepts t = false then .noMatch
      else .matched ((tokens.filter (retains alternatives)).map .token) := by
  rw [parse_eq_outcomeFrom, outcomeFrom_sieve h (Nat.zero_le _)]
  rfl

/-- Whole numbers are dropped though they are numbers, and delimiters are kept since any token is
taken before any token is dropped. -/
theorem parse_sieve_overlapping :
    (∀ alternative ∈ [drop (token .integer), word, number, any, drop any], alternative.Pick) ∧
      ((alt [drop (token .integer), word, number, any, drop any]).repeated .unlimited
        .unlimited).parse [.word "Ann", .delimiter ',', .integer 16, .word "M"] =
        .matched [.token (.word "Ann"), .token (.delimiter ','), .token (.word "M")] := by
  have hpicks : ∀ alternative ∈ [drop (token .integer), word, number, any, drop any],
      alternative.Pick := by
    simp only [List.forall_mem_cons]
    exact ⟨.dropped _, .kept _, .kept _, .kept _, .dropped _, List.forall_mem_nil _⟩
  refine ⟨hpicks, ?_⟩
  rw [parse_sieve hpicks]
  rfl

end Grammar

end MessageGrammar
