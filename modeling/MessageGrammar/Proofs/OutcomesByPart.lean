import MessageGrammar.Proofs.BestOutcome
import MessageGrammar.Proofs.Equivalence
import MessageGrammar.Proofs.KeptTokens

/-!
# Outcomes by part

What a grammar says about the rest of a message from a position on follows from what its parts say
about later rests. A sequence says the best of what its other parts say behind the derivations of its
first part, and for each form of a first part there is an equation between outcomes. To find what a
grammar says about any message means to calculate with these equations, however many derivations the
message has.
-/

namespace MessageGrammar

/-- The tokens of a message from a start up to a stop, each as an item. -/
def taken (tokens : List Token) (start stop : Nat) : List Item :=
  (stretch tokens start stop).map Item.token

/-- Tokens one after another. -/
theorem taken_append (tokens : List Token) {start middle stop : Nat} (h : start ≤ middle)
    (h' : middle ≤ stop) : taken tokens start middle ++ taken tokens middle stop =
      taken tokens start stop := by
  rw [taken, taken, taken, ← List.map_append, stretch_append tokens h h']

/-- There are as many items as tokens. -/
theorem length_taken {tokens : List Token} {start stop : Nat} (h : stop ≤ tokens.length) :
    (taken tokens start stop).length = stop - start := by
  rw [taken, stretch, List.length_map, List.length_take, List.length_drop]
  omega

namespace Outcome

variable (tokens : List Token) (start stop : Nat)

/-- A match has the tokens before it in front. -/
theorem matched_behind_taken (items : List Item) :
    (matched items).behind (taken tokens start stop) =
      matched (taken tokens start stop ++ items) := by
  have hclean : Diagnostic.find? 0 (taken tokens start stop) = none :=
    Diagnostic.find?_eq_none 0 (by simp [taken, Item.isDiagnostic])
  simp [behind, hclean]

/-- A diagnostic is further on by the number of the tokens before it. -/
theorem diagnostic_behind_taken {stop : Nat} (h : stop ≤ tokens.length) (d : Diagnostic) :
    (diagnostic d).behind (taken tokens start stop) =
      diagnostic ⟨d.label, stop - start + d.position⟩ := by
  have hclean : Diagnostic.find? 0 (taken tokens start stop) = none :=
    Diagnostic.find?_eq_none 0 (by simp [taken, Item.isDiagnostic])
  simp [behind, hclean, length_taken h]

end Outcome

namespace TokenClass

/-- A token of the class stands at a position. -/
def At (kinds : TokenClass) (tokens : List Token) (position : Nat) : Prop :=
  ∃ t, tokens[position]? = some t ∧ kinds.accepts t.kind = true

instance (kinds : TokenClass) (tokens : List Token) (position : Nat) :
    Decidable (kinds.At tokens position) :=
  inferInstanceAs (Decidable (∃ t ∈ tokens[position]?, kinds.accepts t.kind = true))

/-- The number of tokens of the class that a message begins with. -/
def leading (kinds : TokenClass) (tokens : List Token) : Nat :=
  (tokens.takeWhile fun t => kinds.accepts t.kind).length

variable {kinds : TokenClass} {tokens : List Token}

/-- A position with a token is one of the message. -/
theorem At.lt {position : Nat} (h : kinds.At tokens position) : position < tokens.length := by
  obtain ⟨t, htoken, -⟩ := h
  exact (List.getElem?_eq_some_iff.mp htoken).1

/-- Behind the last token there is none. -/
theorem not_at_length (kinds : TokenClass) (tokens : List Token) :
    ¬kinds.At tokens tokens.length :=
  fun h => Nat.lt_irrefl _ h.lt

/-- No token is both a word and a delimiter. -/
theorem At.not_delimiter {position : Nat} (h : TokenClass.word.At tokens position) :
    ¬TokenClass.delimiter.At tokens position := by
  intro hdelimiter
  obtain ⟨t, htoken, hword⟩ := h
  obtain ⟨t', htoken', haccepts⟩ := hdelimiter
  obtain rfl := Option.some.inj (htoken.symm.trans htoken')
  cases hkind : t.kind <;> simp [accepts, hkind] at hword haccepts

/-- There are no more tokens of the class than tokens. -/
theorem leading_le (kinds : TokenClass) (tokens : List Token) :
    kinds.leading tokens ≤ tokens.length :=
  (List.takeWhile_sublist _).length_le

/-- The tokens of the class go on by one where such a token stands, and end elsewhere. -/
theorem leading_drop (kinds : TokenClass) (tokens : List Token) (start : Nat) :
    kinds.leading (tokens.drop start) =
      if kinds.At tokens start then kinds.leading (tokens.drop (start + 1)) + 1 else 0 := by
  rcases Nat.lt_or_ge start tokens.length with hs | hs
  · have htoken := List.getElem?_eq_getElem hs
    rw [leading, List.drop_eq_getElem_cons hs, List.takeWhile_cons]
    by_cases haccepts : kinds.accepts tokens[start].kind = true
    · rw [if_pos haccepts, if_pos ⟨_, htoken, haccepts⟩]
      rfl
    · have hnone : ¬kinds.At tokens start := by
        rintro ⟨t, ht, h⟩
        rw [htoken] at ht
        exact haccepts (Option.some.inj ht ▸ h)
      rw [if_neg haccepts, if_neg hnone]
      rfl
  · have hnone : ¬kinds.At tokens start := fun h => absurd h.lt (by omega)
    rw [if_neg hnone, List.drop_eq_nil_of_le hs]
    rfl

/-- There are leading tokens of the class exactly if the message begins with one. -/
theorem leading_eq_zero_iff : kinds.leading tokens = 0 ↔ ¬kinds.At tokens 0 := by
  have hleading := kinds.leading_drop tokens 0
  rw [List.drop_zero] at hleading
  rw [hleading]
  split <;> simp_all

/-- All leading tokens are of the class. -/
theorem at_of_lt_leading {n start : Nat} (h : n < kinds.leading (tokens.drop start)) :
    kinds.At tokens (start + n) := by
  induction n generalizing start with
  | zero =>
    rw [leading_drop] at h
    split at h
    next hat => exact hat
    next => exact absurd h (Nat.lt_irrefl 0)
  | succ n ih =>
    rw [leading_drop] at h
    split at h
    next hat =>
      have hlater := ih (Nat.lt_of_succ_lt_succ h)
      rwa [Nat.add_right_comm] at hlater
    next => exact absurd h (Nat.not_lt_zero _)

end TokenClass

namespace Grammar

/-- What a grammar says about the rest of a message from a position on. -/
def outcomeFrom (grammar : Grammar) (tokens : List Token) (start : Nat) : Outcome :=
  .best (((grammar.derivationsFrom tokens start).toList.filter (·.stop = tokens.length)).map
    Derivation.outcome)

/-- About a whole message a grammar says what it says from the first position on. -/
theorem parse_eq_outcomeFrom (grammar : Grammar) (tokens : List Token) :
    grammar.parse tokens = grammar.outcomeFrom tokens 0 := by
  rw [parse_eq_select, Outcome.select_eq_best, explain, complete, Enumeration.toList_filter]
  rfl

variable {tokens : List Token} {start : Nat} {parts : List Grammar}

/-- The empty sequence understands the end of a message and nothing else. -/
theorem outcomeFrom_seq_nil : (seq []).outcomeFrom tokens start =
    if start = tokens.length then .matched [] else .noMatch := by
  rw [outcomeFrom, toList_derivationsFrom_seq_nil]
  by_cases hs : start = tokens.length
  · simp [hs, Outcome.best, Derivation.outcome, Derivation.diagnostic?, Diagnostic.find?,
      Outcome.orBetter]
  · simp [hs, Outcome.best]

/-- A sequence says the best of what its other parts say behind the derivations of its first
part. -/
theorem outcomeFrom_seq_cons (part : Grammar) :
    (seq (part :: parts)).outcomeFrom tokens start =
      .best ((part.derivationsFrom tokens start).toList.map fun found =>
        ((seq parts).outcomeFrom tokens found.stop).behind found.items) := by
  have hbehind : ∀ found : Derivation, (((((seq parts).derivationsFrom tokens found.stop).toList.map
      (Derivation.after found.items)).filter (·.stop = tokens.length)).map Derivation.outcome) =
        ((((seq parts).derivationsFrom tokens found.stop).toList.filter
          (·.stop = tokens.length)).map Derivation.outcome).map (Outcome.behind found.items) := by
    intro found
    rw [List.filter_map, List.map_map, List.map_map]
    apply List.map_congr_left
    intro later _
    exact later.outcome_after found.items
  rw [outcomeFrom, toList_derivationsFrom_seq_cons, List.filter_flatMap, List.map_flatMap,
    Outcome.best_flatMap]
  simp only [hbehind, Outcome.best_map_behind]
  rfl

/-- What a sequence says depends on the derivations of its first part only. -/
theorem outcomeFrom_seq_congr {part other : Grammar}
    (h : (part.derivationsFrom tokens start).toList = (other.derivationsFrom tokens start).toList) :
    (seq (part :: parts)).outcomeFrom tokens start =
      (seq (other :: parts)).outcomeFrom tokens start := by
  rw [outcomeFrom_seq_cons, outcomeFrom_seq_cons, h]

/-- A class takes the token at the start, if it is one of the class. -/
theorem toList_derivationsFrom_token_eq (kinds : TokenClass) :
    ((token kinds).derivationsFrom tokens start).toList =
      if kinds.At tokens start then [⟨taken tokens start (start + 1), start + 1⟩] else [] := by
  rw [toList_derivationsFrom_token]
  split
  next t htoken =>
    have htaken : taken tokens start (start + 1) = [.token t] := by
      rw [taken, stretch_succ htoken]
      rfl
    have hat : kinds.At tokens start ↔ kinds.accepts t.kind = true := by
      simp [TokenClass.At, htoken]
    rw [htaken, if_congr hat.symm rfl rfl]
  next hnone =>
    have hat : ¬kinds.At tokens start := by simp [TokenClass.At, hnone]
    rw [if_neg hat]

/-- A class in front takes its token. -/
theorem outcomeFrom_token (kinds : TokenClass) :
    (seq (token kinds :: parts)).outcomeFrom tokens start =
      if kinds.At tokens start then
        ((seq parts).outcomeFrom tokens (start + 1)).behind (taken tokens start (start + 1))
      else .noMatch := by
  rw [outcomeFrom_seq_cons, toList_derivationsFrom_token_eq]
  split
  · exact Outcome.orBetter_noMatch _
  · rfl

/-- A delimiter in front is passed over. -/
theorem outcomeFrom_delimiter :
    (seq (delimiter :: parts)).outcomeFrom tokens start =
      if TokenClass.delimiter.At tokens start then (seq parts).outcomeFrom tokens (start + 1)
      else .noMatch := by
  rw [delimiter, outcomeFrom_seq_cons, toList_derivationsFrom_drop, toList_derivationsFrom_token_eq]
  split
  · rw [List.map_singleton, List.map_singleton, Outcome.best_cons]
    exact (Outcome.orBetter_noMatch _).trans (Outcome.behind_nil _)
  · rfl

/-- Equivalent grammars say the same from every position on. -/
theorem Equivalent.outcomeFrom_eq {first second : Grammar} (h : Equivalent first second) :
    first.outcomeFrom tokens start = second.outcomeFrom tokens start := by
  rw [outcomeFrom, h tokens start]
  rfl

/-- A mark in front of other items counts, if these make any outcome at all. -/
theorem behind_mark (label : String) {outcome : Outcome} (h : outcome ≠ .noMatch) :
    outcome.behind [.diagnostic label] = .diagnostic ⟨label, 0⟩ := by
  cases outcome with
  | matched items => rfl
  | diagnostic d => rfl
  | noMatch => exact absurd rfl h

/-- A missing field in front takes all that is left if need be, so that its mark counts. -/
theorem outcomeFrom_missing (label : String) (hs : start ≤ tokens.length)
    (hend : (seq parts).outcomeFrom tokens tokens.length ≠ .noMatch) :
    (seq (missing label :: parts)).outcomeFrom tokens start = .diagnostic ⟨label, 0⟩ := by
  rw [outcomeFrom_seq_cons]
  apply Outcome.best_eq_of_unanimous
  · intro outcome hmem
    obtain ⟨⟨items, stop⟩, hfound, rfl⟩ := List.mem_map.mp hmem
    obtain ⟨rfl, -, -⟩ := (yields_missing_iff hs).mp hfound
    by_cases hnone : (seq parts).outcomeFrom tokens stop = .noMatch
    · exact .inl (by rw [hnone, Outcome.noMatch_behind])
    · exact .inr (behind_mark label hnone)
  · have hall : (missing label).Yields tokens start [.diagnostic label] tokens.length :=
      (yields_missing_iff hs).mpr ⟨rfl, hs, Nat.le_refl _⟩
    have hmem := List.mem_map_of_mem (f := fun found : Derivation =>
      ((seq parts).outcomeFrom tokens found.stop).behind found.items) hall
    rwa [behind_mark label hend] at hmem

/-- A grammar with a mark in its place is the grammar where it matches anything, else the mark. -/
theorem outcomeFrom_orMissing {grammar : Grammar} (label : String) (hs : start ≤ tokens.length)
    (hend : (seq parts).outcomeFrom tokens tokens.length ≠ .noMatch) :
    (seq (first [grammar, missing label] :: parts)).outcomeFrom tokens start =
      if (grammar.derivationsFrom tokens start).toList = [] then .diagnostic ⟨label, 0⟩
      else (seq (grammar :: parts)).outcomeFrom tokens start := by
  have hchoice := toList_derivationsFrom_first_cons tokens start grammar [missing label]
  split
  next hnone =>
    have hmark := toList_derivationsFrom_first_cons tokens start (missing label) []
    rw [if_pos hnone, hmark, toList_derivationsFrom_first_nil, ite_eq_right_iff.mpr Eq.symm]
      at hchoice
    rw [outcomeFrom_seq_congr hchoice, outcomeFrom_missing label hs hend]
  next hsome =>
    rw [if_neg hsome] at hchoice
    exact outcomeFrom_seq_congr hchoice

/-- A class with a mark in its place takes its token or leaves the mark. -/
theorem outcomeFrom_token_orMissing (kinds : TokenClass) (label : String)
    (hs : start ≤ tokens.length)
    (hend : (seq parts).outcomeFrom tokens tokens.length ≠ .noMatch) :
    (seq ((token kinds).orMissing label :: parts)).outcomeFrom tokens start =
      if kinds.At tokens start then
        ((seq parts).outcomeFrom tokens (start + 1)).behind (taken tokens start (start + 1))
      else .diagnostic ⟨label, 0⟩ := by
  have hchoice : (token kinds).orMissing label = first [token kinds, missing label] := rfl
  rw [hchoice, outcomeFrom_orMissing label hs hend, toList_derivationsFrom_token_eq,
    outcomeFrom_token]
  split <;> simp

/-- Passing over some elements of a list leaves the others. -/
theorem flatMap_ite_eq_filter {α : Type} (p : α → Prop) [DecidablePred p] (elements : List α) :
    (elements.flatMap fun a => if p a then [] else [a]) = elements.filter fun a => ¬p a := by
  induction elements with
  | nil => rfl
  | cons a elements ih =>
    by_cases h : p a
    · simp [h, ih]
    · simp [h, ih]

/-- The derivations of an optional grammar: those that take anything, and at last none. -/
theorem toList_derivationsFrom_optional (inner : Grammar) :
    (inner.optional.derivationsFrom tokens start).toList =
      (inner.derivationsFrom tokens start).toList.filter (fun found => ¬found.stop = start) ++
        [⟨[], start⟩] := by
  have honce : ∀ position, inner.iterated 0 (some 1) tokens 1 position = [⟨[], position⟩] := by
    intro position
    rw [iterated_eq]
    simp [stepsAt]
  have hoptional : (inner.optional.derivationsFrom tokens start).toList =
      inner.iterated 0 (some 1) tokens 0 start :=
    toList_derivationsFrom_repetition inner 0 (some 1) tokens start
  rw [hoptional, iterated_eq, ← flatMap_ite_eq_filter]
  simp [stepsAt, honce, Derivation.after]

/-- An optional grammar that takes a token wherever it matches: what is said with it or without it,
whichever is better. -/
theorem outcomeFrom_optional {inner : Grammar}
    (hmoves : ∀ found ∈ (inner.derivationsFrom tokens start).toList, found.stop ≠ start) :
    (seq (inner.optional :: parts)).outcomeFrom tokens start =
      ((seq (inner :: parts)).outcomeFrom tokens start).orBetter
        ((seq parts).outcomeFrom tokens start) := by
  have hall : (inner.derivationsFrom tokens start).toList.filter (fun found => ¬found.stop = start) =
      (inner.derivationsFrom tokens start).toList := by
    rw [List.filter_eq_self]
    intro found hfound
    simpa using hmoves found hfound
  rw [outcomeFrom_seq_cons, toList_derivationsFrom_optional, hall, List.map_append,
    Outcome.best_append, ← outcomeFrom_seq_cons, List.map_singleton, Outcome.best_cons]
  congr 1
  exact (Outcome.orBetter_noMatch _).trans (Outcome.behind_nil _)

/-- A part of a message behind a delimiter, which may be left out. -/
def clause (inner : List Grammar) : Grammar :=
  (seq (delimiter :: inner)).optional

/-- What begins with a delimiter takes a token wherever it matches. -/
theorem stop_ne_of_mem_delimited {inner : List Grammar} :
    ∀ found ∈ ((seq (delimiter :: inner)).derivationsFrom tokens start).toList,
      found.stop ≠ start := by
  intro found hfound
  obtain ⟨first, middle, others, hfirst, hothers, -⟩ := yields_seq_cons_iff.mp hfound
  obtain ⟨-, dropped, hdropped⟩ := yields_drop_iff.mp hfirst
  obtain ⟨t, -, -, -, rfl⟩ := yields_token_iff.mp hdropped
  have hbounds : start + 1 ≤ found.stop := (bounds_of_mem_derivationsFrom hothers).1
  omega

/-- A clause in front: what its parts behind the delimiter say, if there is one, or what is said
without the clause. -/
theorem outcomeFrom_clause (inner : List Grammar) :
    (seq (clause inner :: parts)).outcomeFrom tokens start =
      (if TokenClass.delimiter.At tokens start then
        (seq (inner ++ parts)).outcomeFrom tokens (start + 1) else .noMatch).orBetter
          ((seq parts).outcomeFrom tokens start) := by
  rw [clause, outcomeFrom_optional stop_ne_of_mem_delimited,
    (equivalent_seq_seq (delimiter :: inner) parts).outcomeFrom_eq, List.cons_append,
    outcomeFrom_delimiter]

/-- Without a delimiter, all clauses are left out. -/
theorem outcomeFrom_clauses_of_not_at (clauses : List (List Grammar))
    (h : ¬TokenClass.delimiter.At tokens start) :
    (seq (clauses.map clause)).outcomeFrom tokens start =
      if start = tokens.length then .matched [] else .noMatch := by
  induction clauses with
  | nil => exact outcomeFrom_seq_nil
  | cons inner clauses ih =>
    rw [List.map_cons, outcomeFrom_clause, if_neg h, Outcome.noMatch_orBetter, ih]

/-- At the end of a message, all clauses are left out. -/
theorem outcomeFrom_clauses_length (clauses : List (List Grammar)) :
    (seq (clauses.map clause)).outcomeFrom tokens tokens.length = .matched [] := by
  rw [outcomeFrom_clauses_of_not_at clauses (TokenClass.delimiter.not_at_length tokens), if_pos rfl]

/-- At the end of a message, clauses make some outcome. -/
theorem outcomeFrom_clauses_length_ne (clauses : List (List Grammar)) :
    (seq (clauses.map clause)).outcomeFrom tokens tokens.length ≠ .noMatch := by
  rw [outcomeFrom_clauses_length]
  exact Outcome.noConfusion

/-- A class yields the token at the start, if it is one of the class. -/
theorem yields_token_iff_at {kinds : TokenClass} {items : List Item} {stop : Nat} :
    (token kinds).Yields tokens start items stop ↔
      kinds.At tokens start ∧ items = taken tokens start (start + 1) ∧ stop = start + 1 := by
  rw [Yields, toList_derivationsFrom_token_eq]
  split
  next hat => simp [hat]
  next hat => simp [hat]

/-- A run of iterations of a class is a run of its tokens. -/
theorem iterations_token_iff {kinds : TokenClass} {free n stop : Nat} {items : List Item} :
    Iterations ((token kinds).Yields tokens) free n start items stop ↔
      n ≤ kinds.leading (tokens.drop start) ∧ items = taken tokens start (start + n) ∧
        stop = start + n := by
  induction n generalizing free start stop items with
  | zero =>
    have hnone : taken tokens start (start + 0) = [] := by simp [taken, stretch]
    constructor
    · intro hrun
      cases hrun
      exact ⟨Nat.zero_le _, hnone.symm, rfl⟩
    · intro hrun
      obtain ⟨-, hitems, hstop⟩ := hrun
      rw [hitems, hstop, hnone]
      exact .none free start
  | succ n ih =>
    have hsum : start + 1 + n = start + (n + 1) := by omega
    have hitems := taken_append tokens (Nat.le_succ start) (Nat.le_add_right (start + 1) n)
    rw [hsum] at hitems
    rw [TokenClass.leading_drop]
    constructor
    · intro hrun
      cases hrun with
      | more iteration _ later =>
        obtain ⟨hat, rfl, rfl⟩ := yields_token_iff_at.mp iteration
        obtain ⟨hn, rfl, rfl⟩ := ih.mp later
        rw [if_pos hat, hsum]
        exact ⟨Nat.succ_le_succ hn, hitems, rfl⟩
    · intro hrun
      obtain ⟨hn, rfl, rfl⟩ := hrun
      split at hn
      next hat =>
        have hfirst := yields_token_iff_at.mpr ⟨hat, rfl, rfl⟩
        have hothers : Iterations ((token kinds).Yields tokens) (free - 1) n (start + 1)
            (taken tokens (start + 1) (start + 1 + n)) (start + 1 + n) :=
          ih.mpr ⟨Nat.le_of_succ_le_succ hn, rfl, rfl⟩
        rw [← hitems, ← hsum]
        exact .more hfirst (.inr (Nat.lt_succ_self start)) hothers
      next => exact absurd hn (Nat.not_succ_le_zero n)

/-- A class as often as possible, but at least once: any part of the run of its tokens. -/
theorem yields_many_token_iff {kinds : TokenClass} {items : List Item} {stop : Nat} :
    (token kinds).many.Yields tokens start items stop ↔
      ∃ n, 1 ≤ n ∧ n ≤ kinds.leading (tokens.drop start) ∧
        items = taken tokens start (start + n) ∧ stop = start + n := by
  have hmany : (token kinds).many = repetition (token kinds) 1 none := rfl
  rw [hmany, yields_repetition_iff]
  simp only [iterations_token_iff]
  simp

/-- A derivation of the first part decides what is said, if nothing can be said behind the others. -/
theorem outcomeFrom_of_decisive {grammar : Grammar} {items : List Item} {stop : Nat}
    (hyields : grammar.Yields tokens start items stop)
    (hothers : ∀ items' stop', grammar.Yields tokens start items' stop' →
      items' = items ∧ stop' = stop ∨ (seq parts).outcomeFrom tokens stop' = .noMatch) :
    (seq (grammar :: parts)).outcomeFrom tokens start =
      ((seq parts).outcomeFrom tokens stop).behind items := by
  rw [outcomeFrom_seq_cons]
  apply Outcome.best_eq_of_unanimous
  · intro outcome hmem
    obtain ⟨⟨items', stop'⟩, hfound, rfl⟩ := List.mem_map.mp hmem
    rcases hothers items' stop' hfound with ⟨rfl, rfl⟩ | hnone
    · exact .inr rfl
    · exact .inl (by rw [hnone, Outcome.noMatch_behind])
  · exact List.mem_map_of_mem (f := fun found : Derivation =>
      ((seq parts).outcomeFrom tokens found.stop).behind found.items) hyields

/-- From the beginning of a message, a grammar takes any number of the leading tokens of a class, but
at least one, and has certain items for each number. -/
def TakesLeading (grammar : Grammar) (kinds : TokenClass) (tokens : List Token)
    (image : Nat → List Item) : Prop :=
  ∀ items stop, grammar.Yields tokens 0 items stop ↔
    1 ≤ stop ∧ stop ≤ kinds.leading tokens ∧ items = image stop

/-- A class as often as possible takes the leading tokens as they are. -/
theorem takesLeading_many (kinds : TokenClass) (tokens : List Token) :
    (token kinds).many.TakesLeading kinds tokens (taken tokens 0) := by
  intro items stop
  rw [yields_many_token_iff]
  simp only [List.drop_zero, Nat.zero_add]
  constructor
  · rintro ⟨n, hpos, hle, hitems, rfl⟩
    exact ⟨hpos, hle, hitems⟩
  · rintro ⟨hpos, hle, hitems⟩
    exact ⟨stop, hpos, hle, hitems, rfl⟩

namespace TakesLeading

variable {grammar : Grammar} {kinds : TokenClass} {image : Nat → List Item}

/-- With a tag, a grammar takes as many tokens, as one field. -/
theorem tagged (h : grammar.TakesLeading kinds tokens image)
    (hclean : ∀ n, ∀ item ∈ image n, item.isDiagnostic = false) (name : String) :
    (grammar.tagged name).TakesLeading kinds tokens
      fun n => [.field name ((image n).flatMap Item.tokens)] := by
  intro items stop
  rw [Grammar.tagged, yields_tag_iff]
  constructor
  · rintro ⟨found, hfound, ⟨-, rfl⟩ | ⟨⟨item, hitem, hmark⟩, -⟩⟩
    · obtain ⟨hpos, hle, rfl⟩ := (h found stop).mp hfound
      exact ⟨hpos, hle, rfl⟩
    · obtain ⟨-, -, rfl⟩ := (h found stop).mp hfound
      simp [hclean stop item hitem] at hmark
  · rintro ⟨hpos, hle, hitems⟩
    have hfound := (h (image stop) stop).mpr ⟨hpos, hle, rfl⟩
    exact ⟨image stop, hfound, .inl ⟨hclean stop, hitems⟩⟩

/-- Without a leading token of the class there is no derivation. -/
theorem derivations_eq_nil_iff (h : grammar.TakesLeading kinds tokens image) :
    (grammar.derivationsFrom tokens 0).toList = [] ↔ kinds.leading tokens = 0 := by
  rw [derivationsFrom_eq_nil_iff]
  constructor
  · intro hnone
    by_contra hsome
    have hone := Nat.one_le_iff_ne_zero.mpr hsome
    exact hnone _ 1 ((h _ 1).mpr ⟨Nat.le_refl 1, hone, rfl⟩)
  · intro hleading items stop hyields
    obtain ⟨hpos, hle, -⟩ := (h items stop).mp hyields
    omega

/-- All leading tokens are taken, if nothing can be said from a token of the class on: smaller
numbers lead nowhere. -/
theorem parse (h : grammar.TakesLeading kinds tokens image)
    (hparts : ∀ position, kinds.At tokens position →
      (seq parts).outcomeFrom tokens position = .noMatch) :
    (seq (grammar :: parts)).parse tokens =
      if kinds.leading tokens = 0 then .noMatch
      else ((seq parts).outcomeFrom tokens (kinds.leading tokens)).behind
        (image (kinds.leading tokens)) := by
  rw [parse_eq_outcomeFrom]
  split
  next hnone =>
    rw [outcomeFrom_seq_cons, h.derivations_eq_nil_iff.mpr hnone]
    rfl
  next hsome =>
    have hone := Nat.one_le_iff_ne_zero.mpr hsome
    apply outcomeFrom_of_decisive ((h _ _).mpr ⟨hone, Nat.le_refl _, rfl⟩)
    intro items stop hyields
    obtain ⟨-, hle, rfl⟩ := (h items stop).mp hyields
    rcases Nat.lt_or_eq_of_le hle with hlt | rfl
    · rw [← tokens.drop_zero] at hlt
      have hnext := TokenClass.at_of_lt_leading hlt
      rw [Nat.zero_add] at hnext
      exact .inr (hparts stop hnext)
    · exact .inl ⟨rfl, rfl⟩

/-- With a mark in its place, a grammar takes all leading tokens or leaves the mark. -/
theorem parse_orMissing (h : grammar.TakesLeading kinds tokens image) (label : String)
    (hparts : ∀ position, kinds.At tokens position →
      (seq parts).outcomeFrom tokens position = .noMatch)
    (hend : (seq parts).outcomeFrom tokens tokens.length ≠ .noMatch) :
    (seq (first [grammar, missing label] :: parts)).parse tokens =
      if kinds.leading tokens = 0 then .diagnostic ⟨label, 0⟩
      else ((seq parts).outcomeFrom tokens (kinds.leading tokens)).behind
        (image (kinds.leading tokens)) := by
  rw [parse_eq_outcomeFrom, outcomeFrom_orMissing label (Nat.zero_le _) hend,
    ← parse_eq_outcomeFrom, h.parse hparts, if_congr h.derivations_eq_nil_iff rfl rfl]
  split <;> rfl

end TakesLeading

end Grammar

end MessageGrammar
