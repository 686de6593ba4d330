import MessageGrammar.Proofs.Demographics
import MessageGrammar.Proofs.RepetitionCounts
import MessageGrammar.Proofs.Tags

/-!
# The ready-made grammars agree

The ready-made grammars read the same messages with more or less to say about what is missing. Those
with a single clause say the same about a delimiter with a number and a word behind it, and differ in
what they say when the pair is not there: that nothing matches, that age and sex are missing, or
which of the two. The fields of the tagged grammar group tokens without a change of its report,
since each tag behind the name encloses one token.
-/

namespace MessageGrammar

/-- The outcome with the fields of a match taken apart; a diagnostic stays as it is. -/
def Outcome.expanded : Outcome → Outcome
  | matched items => .matched (items.flatMap Item.expanded)
  | diagnostic d => .diagnostic d
  | noMatch => .noMatch

/-- The better of two outcomes is the same one when fields are taken apart. -/
theorem Outcome.orBetter_expanded (first second : Outcome) :
    (first.orBetter second).expanded = first.expanded.orBetter second.expanded := by
  cases first <;> cases second <;> rfl

/-- The best outcome is the same one when fields are taken apart. -/
theorem Outcome.best_map_expanded (outcomes : List Outcome) :
    best (outcomes.map expanded) = (best outcomes).expanded := by
  induction outcomes with
  | nil => rfl
  | cons outcome outcomes ih => rw [List.map_cons, best_cons, best_cons, ih, orBetter_expanded]

/-- If every item stands for itself or for one token, the first mark stays where it is when fields
are taken apart. -/
theorem Diagnostic.find?_expanded_of_single {items : List Item}
    (h : ∀ item ∈ items, item.expanded.length = 1) (position : Nat) :
    find? position (items.flatMap Item.expanded) = find? position items := by
  induction items generalizing position with
  | nil => rfl
  | cons item items ih =>
    obtain ⟨hitem, hitems⟩ := List.forall_mem_cons.mp h
    rw [List.flatMap_cons]
    cases item with
    | token t => exact ih hitems (position + 1)
    | diagnostic label => rfl
    | field name tokens =>
      rw [Item.expanded, List.length_map] at hitem
      obtain ⟨t, rfl⟩ := List.length_eq_one_iff.mp hitem
      exact ih hitems (position + 1)

/-- A derivation whose items stand for single tokens says the same with its fields taken apart. -/
theorem Derivation.outcome_expanded {derivation : Derivation}
    (h : ∀ item ∈ derivation.items, item.expanded.length = 1) :
    derivation.expanded.outcome = derivation.outcome.expanded := by
  have hfound : derivation.expanded.diagnostic? = derivation.diagnostic? :=
    Diagnostic.find?_expanded_of_single h 0
  rw [outcome, hfound, outcome]
  cases derivation.diagnostic? <;> rfl

/-- Outcomes of one kind, with the same tokens in a match and the same missing field. -/
def Outcome.AgreesWith : Outcome → Outcome → Prop
  | matched items, matched items' => items.flatMap Item.tokens = items'.flatMap Item.tokens
  | diagnostic d, diagnostic d' => d.label = d'.label
  | noMatch, noMatch => True
  | _, _ => False

/-- What agrees with a match is a match with the same tokens. -/
theorem Outcome.AgreesWith.exists_matched {outcome : Outcome} {items : List Item}
    (h : outcome.AgreesWith (matched items)) :
    ∃ items', outcome = matched items' ∧
      items'.flatMap Item.tokens = items.flatMap Item.tokens := by
  cases outcome with
  | matched items' => exact ⟨items', rfl, h⟩
  | diagnostic d => exact h.elim
  | noMatch => exact h.elim

/-- An item stands for the same tokens when it is taken apart. -/
theorem Item.flatMap_tokens_expanded (items : List Item) :
    (items.flatMap Item.expanded).flatMap Item.tokens = items.flatMap Item.tokens := by
  rw [List.flatMap_assoc]
  apply List.flatMap_congr
  intro item _
  cases item with
  | token t => rfl
  | diagnostic label => rfl
  | field name grouped => simp [expanded, Item.tokens, List.flatMap_map]

/-- Items without a mark may be replaced by others with the same tokens in front of an outcome, and
the fields of the outcome may be taken apart. -/
theorem Outcome.agreesWith_behind {items items' : List Item} (outcome : Outcome)
    (hclean : ∀ item ∈ items, item.isDiagnostic = false)
    (hclean' : ∀ item ∈ items', item.isDiagnostic = false)
    (htokens : items.flatMap Item.tokens = items'.flatMap Item.tokens) :
    (outcome.behind items).AgreesWith (outcome.expanded.behind items') := by
  have hnone := Diagnostic.find?_eq_none 0 hclean
  have hnone' := Diagnostic.find?_eq_none 0 hclean'
  cases outcome with
  | matched others =>
    simp [behind, expanded, AgreesWith, hnone, hnone', htokens, Item.flatMap_tokens_expanded]
  | diagnostic d => simp [behind, expanded, AgreesWith, hnone, hnone']
  | noMatch => trivial

namespace Grammar

/-- The grammar is a single class. -/
def IsClass : Grammar → Prop
  | token _ => True
  | _ => False

instance : DecidablePred IsClass
  | token _ => isTrue trivial
  | drop _ | seq _ | alt _ | first _ | repetition _ _ _ | missing _ | tag _ _ => isFalse id

/-- What is tagged is a class. -/
def TagsClasses : Grammar → Prop
  | tag _ inner => inner.IsClass
  | _ => True

instance : DecidablePred TagsClasses
  | tag _ inner => inferInstanceAs (Decidable inner.IsClass)
  | token _ | drop _ | seq _ | alt _ | first _ | repetition _ _ _ | missing _ => isTrue trivial

/-- Where only classes are tagged, every item stands for itself or for one token. -/
theorem keeps_single {grammar : Grammar} (tokens : List Token) (h : grammar.Everywhere TagsClasses) :
    Keeps tokens (fun _ items _ => ∀ item ∈ items, item.expanded.length = 1) grammar := by
  apply keeps_of_everywhere (composable_items _ fun item => item.expanded.length = 1) (h := h)
  case htoken =>
    intro kinds start _ items stop hyields
    obtain ⟨t, -, -, rfl, -⟩ := yields_token_iff.mp hyields
    exact List.forall_mem_singleton.mpr rfl
  case hdrop =>
    intro inner _ _ start _ items stop hyields item hitem
    obtain ⟨rfl, -⟩ := yields_drop_iff.mp hyields
    exact absurd hitem List.not_mem_nil
  case hmissing =>
    intro label start hs items stop hyields
    obtain ⟨rfl, -⟩ := (yields_missing_iff hs).mp hyields
    exact List.forall_mem_singleton.mpr rfl
  case htag =>
    intro name inner hclass hinner start hs items stop hyields
    obtain ⟨found, hfound, ⟨-, rfl⟩ | ⟨-, rfl⟩⟩ := yields_tag_iff.mp hyields
    · cases inner with
      | token kinds =>
        obtain ⟨t, -, -, rfl, -⟩ := yields_token_iff.mp hfound
        exact List.forall_mem_singleton.mpr rfl
      | _ => exact hclass.elim
    · exact hinner start hs items stop hfound

/-- Where only classes are tagged, a grammar says the same without its tags, with the fields of a
match taken apart. -/
theorem outcomeFrom_untagged {grammar : Grammar} {tokens : List Token} {start : Nat}
    (h : grammar.Everywhere TagsClasses) (hs : start ≤ tokens.length) :
    grammar.untagged.outcomeFrom tokens start = (grammar.outcomeFrom tokens start).expanded := by
  rw [outcomeFrom, derivationsFrom_untagged, List.filter_map, List.map_map, outcomeFrom,
    ← Outcome.best_map_expanded, List.map_map]
  congr 1
  apply List.map_congr_left
  intro found hfound
  have hyields : grammar.Yields tokens start found.items found.stop := (List.mem_filter.mp hfound).1
  exact Derivation.outcome_expanded (keeps_single tokens h start hs _ _ hyields)

variable (tokens : List Token) (start : Nat)

/-- What is said from a position on about a pair of a number and a word behind a delimiter, and
`otherwise` about a delimiter without such a pair. -/
def pairOutcome (otherwise : Outcome) : Outcome :=
  if start = tokens.length then .matched []
  else if ¬TokenClass.delimiter.At tokens start then .noMatch
  else if ¬(TokenClass.number.At tokens (start + 1) ∧ TokenClass.word.At tokens (start + 2)) then
    otherwise
  else if start + 3 = tokens.length then .matched (taken tokens (start + 1) (start + 3))
  else .noMatch

/-- Either the pair decides, or all is left to what is said otherwise. -/
theorem pairOutcome_cases :
    (∃ items, ∀ otherwise, pairOutcome tokens start otherwise = .matched items) ∨
      (∀ otherwise, pairOutcome tokens start otherwise = .noMatch) ∨
      ∀ otherwise, pairOutcome tokens start otherwise = otherwise := by
  by_cases hlast : start = tokens.length
  · exact .inl ⟨[], fun _ => by rw [pairOutcome, if_pos hlast]⟩
  by_cases hdelimiter : TokenClass.delimiter.At tokens start
  case neg => exact .inr (.inl fun _ => by rw [pairOutcome, if_neg hlast, if_pos hdelimiter])
  by_cases hpair : TokenClass.number.At tokens (start + 1) ∧ TokenClass.word.At tokens (start + 2)
  case neg =>
    refine .inr (.inr fun _ => ?_)
    rw [pairOutcome, if_neg hlast, if_neg (not_not.mpr hdelimiter), if_pos hpair]
  by_cases hend : start + 3 = tokens.length
  · refine .inl ⟨taken tokens (start + 1) (start + 3), fun _ => ?_⟩
    rw [pairOutcome, if_neg hlast, if_neg (not_not.mpr hdelimiter), if_neg (not_not.mpr hpair),
      if_pos hend]
  · refine .inr (.inl fun _ => ?_)
    rw [pairOutcome, if_neg hlast, if_neg (not_not.mpr hdelimiter), if_neg (not_not.mpr hpair),
      if_neg hend]

/-- A clause at the end: what its parts say behind a delimiter. -/
theorem outcomeFrom_last_clause (inner : List Grammar) :
    (seq [clause inner]).outcomeFrom tokens start =
      if start = tokens.length then .matched []
      else if ¬TokenClass.delimiter.At tokens start then .noMatch
      else (seq inner).outcomeFrom tokens (start + 1) := by
  rw [outcomeFrom_clause, outcomeFrom_seq_nil, List.append_nil, ite_not]
  by_cases hlast : start = tokens.length
  · rw [hlast, if_neg (TokenClass.delimiter.not_at_length tokens), if_pos rfl,
      Outcome.noMatch_orBetter]
  · rw [if_neg hlast, if_neg hlast, Outcome.orBetter_noMatch]

/-- A number and a word, if nothing is behind them. -/
theorem outcomeFrom_number_word :
    (seq [number, word]).outcomeFrom tokens start =
      if TokenClass.number.At tokens start ∧ TokenClass.word.At tokens (start + 1) then
        if start + 2 = tokens.length then .matched (taken tokens start (start + 2)) else .noMatch
      else .noMatch := by
  have htaken := taken_append tokens (Nat.le_succ start) (Nat.le_succ (start + 1))
  rw [number, outcomeFrom_token, word, outcomeFrom_token, outcomeFrom_seq_nil]
  by_cases hnumber : TokenClass.number.At tokens start
  · by_cases hword : TokenClass.word.At tokens (start + 1)
    · have hpair : TokenClass.number.At tokens start ∧ TokenClass.word.At tokens (start + 1) :=
        ⟨hnumber, hword⟩
      rw [if_pos hnumber, if_pos hword, if_pos hpair, Outcome.behind_behind, htaken,
        apply_ite (Outcome.behind _), Outcome.matched_behind_taken, List.append_nil]
      rfl
    · rw [if_pos hnumber, if_neg hword, if_neg (fun h => hword h.2)]
      rfl
  · rw [if_neg hnumber, if_neg (fun h => hnumber h.1)]

/-- A number and a word are derived exactly where they stand. -/
theorem derivationsFrom_number_word_eq_nil_iff :
    ((seq [number, word]).derivationsFrom tokens start).toList = [] ↔
      ¬(TokenClass.number.At tokens start ∧ TokenClass.word.At tokens (start + 1)) := by
  rw [number, toList_derivationsFrom_seq_cons, toList_derivationsFrom_token_eq]
  by_cases hnumber : TokenClass.number.At tokens start
  · rw [if_pos hnumber, List.flatMap_singleton, List.map_eq_nil_iff, equivalent_seq_singleton, word,
      toList_derivationsFrom_token_eq]
    simp [hnumber]
  · simp [hnumber]

/-- A number and a word behind a delimiter, or nothing. -/
theorem outcomeFrom_optional_pair :
    (seq [clause [number, word]]).outcomeFrom tokens start = pairOutcome tokens start .noMatch := by
  rw [outcomeFrom_last_clause, outcomeFrom_number_word, pairOutcome, ite_not (_ ∧ _)]

/-- A number and a word behind a delimiter, with one mark for both. -/
theorem outcomeFrom_coarse_pair (label : String) :
    (seq [clause [(number &&& word).orMissing label]]).outcomeFrom tokens start =
      pairOutcome tokens start (.diagnostic ⟨label, 0⟩) := by
  rw [outcomeFrom_last_clause, pairOutcome]
  by_cases hdelimiter : TokenClass.delimiter.At tokens start
  · have hmark : (number &&& word).orMissing label = first [seq [number, word], missing label] := rfl
    have hend : (seq []).outcomeFrom tokens tokens.length ≠ .noMatch :=
      outcomeFrom_clauses_length_ne []
    rw [hmark, outcomeFrom_orMissing label hdelimiter.lt hend,
      if_congr (derivationsFrom_number_word_eq_nil_iff tokens (start + 1)) rfl rfl,
      (equivalent_seq_singleton _).outcomeFrom_eq, outcomeFrom_number_word]
    by_cases hpair : TokenClass.number.At tokens (start + 1) ∧ TokenClass.word.At tokens (start + 2)
    · rw [if_pos hpair]
    · rw [if_pos hpair, if_pos hpair]
  · rw [if_pos hdelimiter, if_pos hdelimiter]

/-- A number and a word behind a delimiter, with a mark for each of them. -/
theorem outcomeFrom_age_sex_pair :
    (seq [clause [number.orMissing "age", word.orMissing "sex"]]).outcomeFrom tokens start =
      pairOutcome tokens start (if TokenClass.number.At tokens (start + 1)
        then .diagnostic ⟨"sex", 1⟩ else .diagnostic ⟨"age", 0⟩) := by
  rw [outcomeFrom_last_age_sex, pairOutcome]
  by_cases hnumber : TokenClass.number.At tokens (start + 1)
  · simp [hnumber]
  · simp [hnumber]

/-- Words with one clause behind them, which begins behind all leading words. -/
theorem parse_words_clause (inner : List Grammar) :
    (seq [word.many, clause inner]).parse tokens =
      if TokenClass.word.leading tokens = 0 then .noMatch
      else ((seq [clause inner]).outcomeFrom tokens (TokenClass.word.leading tokens)).behind
        (taken tokens 0 (TokenClass.word.leading tokens)) :=
  (takesLeading_many .word tokens).parse fun _ => outcomeFrom_clauses_of_word tokens [inner]

namespace Builtin

/-- What `optionalTail` says depends on the leading words and the pair behind them. -/
theorem parse_optionalTail : optionalTail.parse tokens =
    if TokenClass.word.leading tokens = 0 then .noMatch
    else (pairOutcome tokens (TokenClass.word.leading tokens) .noMatch).behind
      (taken tokens 0 (TokenClass.word.leading tokens)) := by
  have hform : optionalTail = seq [word.many, clause [number, word]] := rfl
  rw [hform, parse_words_clause, outcomeFrom_optional_pair]

/-- What `coarse` says depends on the leading words and the pair behind them. -/
theorem parse_coarse : coarse.parse tokens =
    if TokenClass.word.leading tokens = 0 then .noMatch
    else (pairOutcome tokens (TokenClass.word.leading tokens)
      (.diagnostic ⟨"age and sex", 0⟩)).behind
        (taken tokens 0 (TokenClass.word.leading tokens)) := by
  have hform : coarse = seq [word.many, clause [(number &&& word).orMissing "age and sex"]] := rfl
  rw [hform, parse_words_clause, outcomeFrom_coarse_pair]

/-- What `demographics` says depends on the leading words and the pair behind them; the age is
missing before the sex. -/
theorem parse_demographics_pair : demographics.parse tokens =
    if TokenClass.word.leading tokens = 0 then .diagnostic ⟨"name", 0⟩
    else (pairOutcome tokens (TokenClass.word.leading tokens)
      (if TokenClass.number.At tokens (TokenClass.word.leading tokens + 1)
        then .diagnostic ⟨"sex", 1⟩ else .diagnostic ⟨"age", 0⟩)).behind
          (taken tokens 0 (TokenClass.word.leading tokens)) := by
  have hform : demographics = seq (word.many.orMissing "name" ::
      [[number.orMissing "age", word.orMissing "sex"]].map clause) := rfl
  rw [hform, parse_name_clauses, List.map_singleton, outcomeFrom_age_sex_pair]

/-- What `taggedDemographics` says behind all leading words, which are one field. -/
theorem parse_taggedDemographics_clause : taggedDemographics.parse tokens =
    if TokenClass.word.leading tokens = 0 then .diagnostic ⟨"name", 0⟩
    else ((seq [clause [(number.tagged "age").orMissing "age",
      (word.tagged "sex").orMissing "sex"]]).outcomeFrom tokens
        (TokenClass.word.leading tokens)).behind
          [.field "name" ((taken tokens 0 (TokenClass.word.leading tokens)).flatMap Item.tokens)] := by
  have hclean : ∀ n, ∀ item ∈ taken tokens 0 n, item.isDiagnostic = false :=
    fun n => Item.isDiagnostic_of_mem_map (stretch tokens 0 n)
  exact ((takesLeading_many .word tokens).tagged hclean "name").parse_orMissing "name"
    (fun _ => outcomeFrom_clauses_of_word tokens [_]) (outcomeFrom_clauses_length_ne [_])

/-- In the clause behind the name each field has one token, so that tags do not even change the order
of the diagnostics there. -/
theorem outcomeFrom_age_sex_untagged (hs : start ≤ tokens.length) :
    (seq [clause [number.orMissing "age", word.orMissing "sex"]]).outcomeFrom tokens start =
      ((seq [clause [(number.tagged "age").orMissing "age",
        (word.tagged "sex").orMissing "sex"]]).outcomeFrom tokens start).expanded := by
  have hclasses : (seq [clause [(number.tagged "age").orMissing "age",
      (word.tagged "sex").orMissing "sex"]]).Everywhere TagsClasses := by decide
  exact outcomeFrom_untagged hclasses hs

/-- The fields of `taggedDemographics` change nothing in its report. -/
theorem taggedDemographics_agreesWith :
    (taggedDemographics.parse tokens).AgreesWith (demographics.parse tokens) := by
  have hform : demographics = seq (word.many.orMissing "name" ::
      [[number.orMissing "age", word.orMissing "sex"]].map clause) := rfl
  rw [parse_taggedDemographics_clause, hform, parse_name_clauses, List.map_singleton,
    outcomeFrom_age_sex_untagged tokens _ (TokenClass.word.leading_le tokens)]
  split
  · rfl
  · apply Outcome.agreesWith_behind
    · simp [Item.isDiagnostic]
    · exact Item.isDiagnostic_of_mem_map _
    · simp [Item.tokens]

/-- The three grammars with untagged words in front and a single clause: without a word at the
beginning two of them match nothing; else all of them match the same items, or none matches, or a
pair is not there and each of them says so in its own way. -/
theorem singleClause_cases :
    (¬TokenClass.word.At tokens 0 ∧ optionalTail.parse tokens = .noMatch ∧
        coarse.parse tokens = .noMatch) ∨
      TokenClass.word.At tokens 0 ∧
        ((∃ items, optionalTail.parse tokens = .matched items ∧
            coarse.parse tokens = .matched items ∧ demographics.parse tokens = .matched items) ∨
          (optionalTail.parse tokens = .noMatch ∧ coarse.parse tokens = .noMatch ∧
            demographics.parse tokens = .noMatch) ∨
          ∃ position label position', (label = "age" ∨ label = "sex") ∧
            optionalTail.parse tokens = .noMatch ∧
            coarse.parse tokens = .diagnostic ⟨"age and sex", position⟩ ∧
            demographics.parse tokens = .diagnostic ⟨label, position'⟩) := by
  have hle := TokenClass.word.leading_le tokens
  rw [parse_optionalTail, parse_coarse, parse_demographics_pair]
  by_cases hword : TokenClass.word.At tokens 0
  case neg =>
    have hnone := TokenClass.leading_eq_zero_iff.mpr hword
    exact .inl ⟨hword, if_pos hnone, if_pos hnone⟩
  have hsome := mt TokenClass.leading_eq_zero_iff.mp (not_not.mpr hword)
  rw [if_neg hsome, if_neg hsome, if_neg hsome]
  refine .inr ⟨hword, ?_⟩
  -- the grammars share the name and differ only in what they say if the pair is not there
  rcases pairOutcome_cases tokens (TokenClass.word.leading tokens) with
    ⟨items, hmatched⟩ | hnone | hopen
  · rw [hmatched, hmatched, hmatched, Outcome.matched_behind_taken]
    exact .inl ⟨_, rfl, rfl, rfl⟩
  · rw [hnone, hnone, hnone, Outcome.noMatch_behind]
    exact .inr (.inl ⟨rfl, rfl, rfl⟩)
  · rw [hopen, hopen, hopen, Outcome.noMatch_behind, Outcome.diagnostic_behind_taken tokens _ hle,
      apply_ite (Outcome.behind _), Outcome.diagnostic_behind_taken tokens _ hle,
      Outcome.diagnostic_behind_taken tokens _ hle]
    by_cases hnumber : TokenClass.number.At tokens (TokenClass.word.leading tokens + 1)
    · rw [if_pos hnumber]
      exact .inr (.inr ⟨_, _, _, .inr rfl, rfl, rfl, rfl⟩)
    · rw [if_neg hnumber]
      exact .inr (.inr ⟨_, _, _, .inl rfl, rfl, rfl, rfl⟩)

/-- Two words, a delimiter, a number and a word are the whole message. -/
def IsPhrase : Prop :=
  (TokenClass.word.At tokens 0 ∧ TokenClass.word.At tokens 1) ∧ TokenClass.delimiter.At tokens 2 ∧
    (TokenClass.number.At tokens 3 ∧ TokenClass.word.At tokens 4) ∧ 5 = tokens.length

instance : Decidable (IsPhrase tokens) := inferInstanceAs (Decidable (_ ∧ _))

/-- Two words, a delimiter, a number and a word are a match of `simple`, and nothing else is. -/
theorem parse_simple : simple.parse tokens =
    if IsPhrase tokens then .matched (taken tokens 0 2 ++ taken tokens 3 5) else .noMatch := by
  have hwords : Equivalent simple (seq [word, word, delimiter, number, word]) :=
    (equivalent_seq_cons (equivalent_times word 2) (.refl _)).trans
      (equivalent_seq_seq [word, word] [delimiter, number, word])
  have htaken := taken_append tokens (Nat.zero_le 1) (Nat.le_succ 1)
  rw [parse_eq_outcomeFrom, hwords.outcomeFrom_eq, word, outcomeFrom_token, outcomeFrom_token,
    outcomeFrom_delimiter, ← word, outcomeFrom_number_word]
  simp only [IsPhrase]
  -- the conditions fail one after another, in the order of the message
  by_cases hfirst : TokenClass.word.At tokens 0
  case neg => simp [hfirst]
  by_cases hsecond : TokenClass.word.At tokens 1
  case neg => simp [hsecond]
  by_cases hdelimiter : TokenClass.delimiter.At tokens 2
  case neg => simp [hdelimiter]
  by_cases hpair : TokenClass.number.At tokens 3 ∧ TokenClass.word.At tokens 4
  case neg => simp [hpair]
  by_cases hend : 5 = tokens.length
  case neg => simp [hend]
  simp [hfirst, hsecond, hdelimiter, hpair, ← hend, Outcome.matched_behind_taken, ← htaken]

section Phrase

variable {tokens : List Token} (hphrase : IsPhrase tokens)

include hphrase

/-- The name of a phrase ends with its second word, since a delimiter is no word. -/
theorem IsPhrase.leading_eq_two : TokenClass.word.leading tokens = 2 := by
  obtain ⟨⟨hfirst, hsecond⟩, hdelimiter, -⟩ := hphrase
  have hend : ¬TokenClass.word.At tokens 2 := fun hword => hword.not_delimiter hdelimiter
  have hafter := TokenClass.word.leading_drop tokens 2
  have hlater := TokenClass.word.leading_drop tokens 1
  have hall := TokenClass.word.leading_drop tokens 0
  rw [if_neg hend] at hafter
  rw [if_pos hsecond, hafter] at hlater
  rw [if_pos hfirst, hlater] at hall
  exact hall

/-- Behind the name of a phrase the pair is there, so that nothing is said otherwise. -/
theorem IsPhrase.pairOutcome_behind (otherwise : Outcome) :
    (pairOutcome tokens 2 otherwise).behind (taken tokens 0 2) =
      .matched (taken tokens 0 2 ++ taken tokens 3 5) := by
  obtain ⟨-, hdelimiter, hpair, hend⟩ := hphrase
  have hstart : ¬2 = tokens.length := by omega
  rw [pairOutcome, if_neg hstart, if_neg (not_not.mpr hdelimiter), if_neg (not_not.mpr hpair),
    if_pos hend, Outcome.matched_behind_taken]

/-- The second clause of `demographicsMultipath` is left out of a phrase. -/
theorem IsPhrase.matched_demographicsMultipath :
    demographicsMultipath.parse tokens = .matched (taken tokens 0 2 ++ taken tokens 3 5) := by
  have hwords := hphrase.leading_eq_two
  obtain ⟨-, hdelimiter, hpair, hend⟩ := hphrase
  have hstart : ¬2 = tokens.length := by omega
  have hage : ¬2 + 2 = tokens.length := by omega
  have hform : demographicsMultipath = seq (word.many.orMissing "name" ::
    [[number.orMissing "age", word.orMissing "sex"], [number.orMissing "age"]].map clause) := rfl
  rw [hform, parse_name_clauses, hwords, if_neg (by decide), List.map_cons, List.map_singleton,
    outcomeFrom_age_sex_then_age, if_neg hstart, if_neg (not_not.mpr hdelimiter),
    if_neg (not_not.mpr hpair.1), if_neg hage, if_neg (not_not.mpr hpair.2), if_pos hend,
    Outcome.matched_behind_taken]

/-- A phrase is matched by all ready-made grammars, with the same tokens. -/
theorem IsPhrase.forall_matched : ∀ entry ∈ table, ∃ items, entry.2.parse tokens = .matched items ∧
    items.flatMap Item.tokens =
      (taken tokens 0 2 ++ taken tokens 3 5).flatMap Item.tokens := by
  have hwords := hphrase.leading_eq_two
  have hpair := hphrase.pairOutcome_behind
  have hsimple : simple.parse tokens = .matched (taken tokens 0 2 ++ taken tokens 3 5) := by
    rw [parse_simple, if_pos hphrase]
  have hoptional : optionalTail.parse tokens =
      .matched (taken tokens 0 2 ++ taken tokens 3 5) := by
    rw [parse_optionalTail, hwords, if_neg (by decide), hpair]
  have hcoarse : coarse.parse tokens = .matched (taken tokens 0 2 ++ taken tokens 3 5) := by
    rw [parse_coarse, hwords, if_neg (by decide), hpair]
  have hdemographics : demographics.parse tokens =
      .matched (taken tokens 0 2 ++ taken tokens 3 5) := by
    rw [parse_demographics_pair, hwords, if_neg (by decide), hpair]
  have hmultipath := hphrase.matched_demographicsMultipath
  have htagged := taggedDemographics_agreesWith tokens
  rw [hdemographics] at htagged
  simp only [table, List.forall_mem_cons]
  exact ⟨⟨_, hsimple, rfl⟩, ⟨_, hoptional, rfl⟩, ⟨_, hcoarse, rfl⟩, ⟨_, hdemographics, rfl⟩,
    ⟨_, hmultipath, rfl⟩, htagged.exists_matched, fun _ hnone => absurd hnone List.not_mem_nil⟩

end Phrase

/-- What `simple` matches is matched by all ready-made grammars, with the same tokens. -/
theorem exists_matched_of_simple {items : List Item} (h : simple.parse tokens = .matched items) :
    ∀ entry ∈ table, ∃ items', entry.2.parse tokens = .matched items' ∧
      items'.flatMap Item.tokens = items.flatMap Item.tokens := by
  rw [parse_simple] at h
  by_cases hphrase : IsPhrase tokens
  · rw [if_pos hphrase] at h
    obtain rfl := Outcome.matched.inj h
    exact hphrase.forall_matched
  · rw [if_neg hphrase] at h
    exact Outcome.noConfusion h

/-- Behind a word, `coarse` says what `demographics` says, with one mark for two. -/
theorem coarse_of_word (hword : TokenClass.word.At tokens 0) :
    (∀ items, coarse.parse tokens = .matched items ↔ demographics.parse tokens = .matched items) ∧
      ((∃ position, coarse.parse tokens = .diagnostic ⟨"age and sex", position⟩) ↔
        ∃ label position, (label = "age" ∨ label = "sex") ∧
          demographics.parse tokens = .diagnostic ⟨label, position⟩) ∧
      (coarse.parse tokens = .noMatch ↔ demographics.parse tokens = .noMatch) := by
  rcases singleClause_cases tokens with ⟨hnone, -⟩ | ⟨-, hcases⟩
  · exact absurd hword hnone
  rcases hcases with ⟨items, -, hcoarse, hdemographics⟩ | ⟨-, hcoarse, hdemographics⟩ |
    ⟨position, label, position', hlabel, -, hcoarse, hdemographics⟩
  · simp [hcoarse, hdemographics]
  · simp [hcoarse, hdemographics]
  · simp [hcoarse, hdemographics, hlabel]

/-- `optionalTail` has the matches of `coarse` and never a diagnostic. -/
theorem optionalTail_of_coarse :
    (∀ items, optionalTail.parse tokens = .matched items ↔ coarse.parse tokens = .matched items) ∧
      ∀ d, optionalTail.parse tokens ≠ .diagnostic d := by
  rcases singleClause_cases tokens with ⟨-, hoptional, hcoarse⟩ |
    ⟨-, ⟨items, hoptional, hcoarse, -⟩ | ⟨hoptional, hcoarse, -⟩ |
      ⟨position, label, position', -, hoptional, hcoarse, -⟩⟩
  all_goals simp [hoptional, hcoarse]

/-- The ready-made grammars agree about every message. The tagged and the untagged grammar have
outcomes of one kind, with the same tokens or the same missing field. If a message begins with a
word, `coarse` matches what `demographics` matches, misses age and sex where that misses one of them,
and matches nothing where that matches nothing; without a word at the beginning it matches nothing.
`optionalTail` has the matches of `coarse` and never a diagnostic. And all of them match what
`simple` matches, with the same tokens. -/
theorem builtin_grammars_agree :
    (taggedDemographics.parse tokens).AgreesWith (demographics.parse tokens) ∧
    (TokenClass.word.At tokens 0 →
      (∀ items, coarse.parse tokens = .matched items ↔
        demographics.parse tokens = .matched items) ∧
      ((∃ position, coarse.parse tokens = .diagnostic ⟨"age and sex", position⟩) ↔
        ∃ label position, (label = "age" ∨ label = "sex") ∧
          demographics.parse tokens = .diagnostic ⟨label, position⟩) ∧
      (coarse.parse tokens = .noMatch ↔ demographics.parse tokens = .noMatch)) ∧
    (¬TokenClass.word.At tokens 0 → coarse.parse tokens = .noMatch) ∧
    (∀ items, optionalTail.parse tokens = .matched items ↔ coarse.parse tokens = .matched items) ∧
    (∀ d, optionalTail.parse tokens ≠ .diagnostic d) ∧
    ∀ items, simple.parse tokens = .matched items →
      ∀ entry ∈ table, ∃ items', entry.2.parse tokens = .matched items' ∧
        items'.flatMap Item.tokens = items.flatMap Item.tokens := by
  obtain ⟨hmatches, hdiagnostics⟩ := optionalTail_of_coarse tokens
  refine ⟨taggedDemographics_agreesWith tokens, coarse_of_word tokens, ?_, hmatches, hdiagnostics,
    fun _ => exists_matched_of_simple tokens⟩
  intro hnone
  rw [parse_coarse, if_pos (TokenClass.leading_eq_zero_iff.mpr hnone)]

/-- Name, age and sex are matched by all ready-made grammars, and without the name by none of those
with a single mark. -/
theorem builtin_grammars_agree_on_phrase :
    TokenClass.word.At [.word "John", .word "Smith", .delimiter ',', .integer 16, .word "M"] 0 ∧
      ¬TokenClass.word.At [.delimiter ',', .integer 16, .word "M"] 0 ∧
      simple.parse [.word "John", .word "Smith", .delimiter ',', .integer 16, .word "M"] =
        .matched [.token (.word "John"), .token (.word "Smith"), .token (.integer 16),
          .token (.word "M")] ∧
      (coarse.parse [.word "John", .word "Smith", .delimiter ',', .integer 16, .word "M"] =
          .noMatch ↔
        demographics.parse [.word "John", .word "Smith", .delimiter ',', .integer 16, .word "M"] =
          .noMatch) ∧
      coarse.parse [.delimiter ',', .integer 16, .word "M"] = .noMatch ∧
      ∀ entry ∈ table, ∃ items', entry.2.parse
          [.word "John", .word "Smith", .delimiter ',', .integer 16, .word "M"] = .matched items' ∧
        items'.flatMap Item.tokens = [.word "John", .word "Smith", .integer 16, .word "M"] := by
  have hword : TokenClass.word.At
      [.word "John", .word "Smith", .delimiter ',', .integer 16, .word "M"] 0 := by decide
  have hnone : ¬TokenClass.word.At [.delimiter ',', .integer 16, .word "M"] 0 := by decide
  have hsimple : simple.parse
      [.word "John", .word "Smith", .delimiter ',', .integer 16, .word "M"] =
        .matched [.token (.word "John"), .token (.word "Smith"), .token (.integer 16),
          .token (.word "M")] := by cbv
  obtain ⟨-, hbehind, -, -, -, hall⟩ := builtin_grammars_agree
    [.word "John", .word "Smith", .delimiter ',', .integer 16, .word "M"]
  obtain ⟨-, -, hwithout, -⟩ := builtin_grammars_agree [.delimiter ',', .integer 16, .word "M"]
  exact ⟨hword, hnone, hsimple, (hbehind hword).2.2, hwithout hnone, hall _ hsimple⟩

end Builtin

end Grammar

end MessageGrammar
