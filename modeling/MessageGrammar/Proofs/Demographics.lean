import MessageGrammar.Grammar.Builtin
import MessageGrammar.Proofs.OutcomesByPart

/-!
# Messages about a person

The ready-made grammars for a name, perhaps followed by age and sex, are ambiguous: every missing
field may take any stretch of a message, every part of the leading words may be the name, and the
clauses behind it may be left out. All the same, what they say about a message of any length depends
on few of its tokens: on the number of leading words and on the kinds of the tokens behind them.
-/

namespace MessageGrammar

namespace Grammar

variable (tokens : List Token) (start : Nat)

/-- No clause begins with a word. -/
theorem outcomeFrom_clauses_of_word (clauses : List (List Grammar)) {position : Nat}
    (hat : TokenClass.word.At tokens position) :
    (seq (clauses.map clause)).outcomeFrom tokens position = .noMatch := by
  have hlt := hat.lt
  rw [outcomeFrom_clauses_of_not_at clauses hat.not_delimiter, if_neg (by omega)]

/-- Words and clauses: the clauses begin behind all leading words. Without a word the name is
missing. -/
theorem parse_name_clauses (clauses : List (List Grammar)) :
    (seq (word.many.orMissing "name" :: clauses.map clause)).parse tokens =
      if TokenClass.word.leading tokens = 0 then .diagnostic ⟨"name", 0⟩
      else ((seq (clauses.map clause)).outcomeFrom tokens (TokenClass.word.leading tokens)).behind
        (taken tokens 0 (TokenClass.word.leading tokens)) :=
  (takesLeading_many .word tokens).parse_orMissing "name"
    (fun _ => outcomeFrom_clauses_of_word tokens clauses) (outcomeFrom_clauses_length_ne clauses)

/-- An age in front, with what follows it. -/
theorem outcomeFrom_age_clause {parts : List Grammar} (inner : List Grammar)
    (hend : (seq (inner ++ parts)).outcomeFrom tokens tokens.length ≠ .noMatch) :
    (seq (clause (number.orMissing "age" :: inner) :: parts)).outcomeFrom tokens start =
      (if ¬TokenClass.delimiter.At tokens start then .noMatch
        else if ¬TokenClass.number.At tokens (start + 1) then .diagnostic ⟨"age", 0⟩
        else ((seq (inner ++ parts)).outcomeFrom tokens (start + 2)).behind
          (taken tokens (start + 1) (start + 2))).orBetter
        ((seq parts).outcomeFrom tokens start) := by
  rw [outcomeFrom_clause]
  by_cases hdelimiter : TokenClass.delimiter.At tokens start
  · rw [if_pos hdelimiter, if_neg (not_not.mpr hdelimiter), List.cons_append, number,
      outcomeFrom_token_orMissing _ _ hdelimiter.lt hend, ite_not]
  · rw [if_neg hdelimiter, if_pos hdelimiter]

/-- A clause with an age alone, at the end. -/
theorem outcomeFrom_last_age : (seq [clause [number.orMissing "age"]]).outcomeFrom tokens start =
    if start = tokens.length then .matched []
    else if ¬TokenClass.delimiter.At tokens start then .noMatch
    else if ¬TokenClass.number.At tokens (start + 1) then .diagnostic ⟨"age", 0⟩
    else if start + 2 = tokens.length then .matched (taken tokens (start + 1) (start + 2))
    else .noMatch := by
  by_cases hlast : start = tokens.length
  · rw [if_pos hlast, hlast]
    exact outcomeFrom_clauses_length [[number.orMissing "age"]]
  · have hclause := outcomeFrom_age_clause tokens start [] (outcomeFrom_clauses_length_ne [])
    rw [List.nil_append, outcomeFrom_seq_nil, outcomeFrom_seq_nil, if_neg hlast,
      Outcome.orBetter_noMatch, apply_ite (Outcome.behind _), Outcome.matched_behind_taken,
      List.append_nil, Outcome.noMatch_behind] at hclause
    rw [if_neg hlast, hclause]

/-- An age and a sex in front, with the clauses that follow. -/
theorem outcomeFrom_age_sex_clause (clauses : List (List Grammar)) :
    (seq (clause [number.orMissing "age", word.orMissing "sex"] :: clauses.map clause)).outcomeFrom
        tokens start =
      (if ¬TokenClass.delimiter.At tokens start then .noMatch
        else if ¬TokenClass.number.At tokens (start + 1) then .diagnostic ⟨"age", 0⟩
        else if ¬TokenClass.word.At tokens (start + 2) then .diagnostic ⟨"sex", 1⟩
        else ((seq (clauses.map clause)).outcomeFrom tokens (start + 3)).behind
          (taken tokens (start + 1) (start + 3))).orBetter
        ((seq (clauses.map clause)).outcomeFrom tokens start) := by
  have hend : (seq (clauses.map clause)).outcomeFrom tokens tokens.length ≠ .noMatch :=
    outcomeFrom_clauses_length_ne clauses
  have hsex : (seq ([word.orMissing "sex"] ++ clauses.map clause)).outcomeFrom tokens
      tokens.length ≠ .noMatch := by
    rw [List.singleton_append, word, outcomeFrom_token_orMissing _ _ (Nat.le_refl _) hend,
      if_neg (TokenClass.word.not_at_length tokens)]
    exact Outcome.noConfusion
  rw [outcomeFrom_age_clause tokens start _ hsex]
  congr 1
  by_cases hnumber : TokenClass.number.At tokens (start + 1)
  · have hlt : start + 2 ≤ tokens.length := hnumber.lt
    have htaken := taken_append tokens (Nat.le_succ (start + 1)) (Nat.le_succ (start + 2))
    have hbehind : ((seq ([word.orMissing "sex"] ++ clauses.map clause)).outcomeFrom tokens
        (start + 2)).behind (taken tokens (start + 1) (start + 2)) =
          if ¬TokenClass.word.At tokens (start + 2) then .diagnostic ⟨"sex", 1⟩
          else ((seq (clauses.map clause)).outcomeFrom tokens (start + 3)).behind
            (taken tokens (start + 1) (start + 3)) := by
      rw [List.singleton_append, word, outcomeFrom_token_orMissing _ _ hlt hend, ite_not,
        apply_ite (Outcome.behind _), Outcome.behind_behind, htaken,
        Outcome.diagnostic_behind_taken tokens _ hlt, Nat.add_sub_add_left]
      rfl
    rw [hbehind]
  · simp only [hnumber, not_false_eq_true, if_true]

/-- A clause with age and sex, at the end. -/
theorem outcomeFrom_last_age_sex :
    (seq [clause [number.orMissing "age", word.orMissing "sex"]]).outcomeFrom tokens start =
      if start = tokens.length then .matched []
      else if ¬TokenClass.delimiter.At tokens start then .noMatch
      else if ¬TokenClass.number.At tokens (start + 1) then .diagnostic ⟨"age", 0⟩
      else if ¬TokenClass.word.At tokens (start + 2) then .diagnostic ⟨"sex", 1⟩
      else if start + 3 = tokens.length then .matched (taken tokens (start + 1) (start + 3))
      else .noMatch := by
  by_cases hlast : start = tokens.length
  · rw [if_pos hlast, hlast]
    exact outcomeFrom_clauses_length [[number.orMissing "age", word.orMissing "sex"]]
  · have hclause := outcomeFrom_age_sex_clause tokens start []
    rw [List.map_nil, outcomeFrom_seq_nil, outcomeFrom_seq_nil, if_neg hlast,
      Outcome.orBetter_noMatch, apply_ite (Outcome.behind _), Outcome.matched_behind_taken,
      List.append_nil, Outcome.noMatch_behind] at hclause
    rw [if_neg hlast, hclause]

/-- A clause with age and sex and one with an age alone, at the end. The age alone is taken by the
second clause, although the first one may take it as well and miss the sex. -/
theorem outcomeFrom_age_sex_then_age :
    (seq [clause [number.orMissing "age", word.orMissing "sex"],
        clause [number.orMissing "age"]]).outcomeFrom tokens start =
      if start = tokens.length then .matched []
      else if ¬TokenClass.delimiter.At tokens start then .noMatch
      else if ¬TokenClass.number.At tokens (start + 1) then .diagnostic ⟨"age", 0⟩
      else if start + 2 = tokens.length then .matched (taken tokens (start + 1) (start + 2))
      else if ¬TokenClass.word.At tokens (start + 2) then .diagnostic ⟨"sex", 1⟩
      else if start + 3 = tokens.length then .matched (taken tokens (start + 1) (start + 3))
      else if ¬TokenClass.delimiter.At tokens (start + 3) then .noMatch
      else if ¬TokenClass.number.At tokens (start + 4) then .diagnostic ⟨"age", 2⟩
      else if start + 5 = tokens.length then
        .matched (taken tokens (start + 1) (start + 3) ++ taken tokens (start + 4) (start + 5))
      else .noMatch := by
  by_cases hlast : start = tokens.length
  · rw [if_pos hlast, hlast]
    exact outcomeFrom_clauses_length
      [[number.orMissing "age", word.orMissing "sex"], [number.orMissing "age"]]
  have hclause := outcomeFrom_age_sex_clause tokens start [[number.orMissing "age"]]
  rw [List.map_singleton, outcomeFrom_last_age, outcomeFrom_last_age] at hclause
  rw [hclause]
  by_cases hdelimiter : TokenClass.delimiter.At tokens start
  case neg => simp only [hlast, hdelimiter, not_false_eq_true, if_true, if_false,
    Outcome.noMatch_orBetter]
  by_cases hnumber : TokenClass.number.At tokens (start + 1)
  case neg => simp only [hlast, hdelimiter, hnumber, not_true_eq_false, not_false_eq_true, if_true,
    if_false, Outcome.orBetter_self]
  simp only [hlast, hdelimiter, hnumber, not_true_eq_false, if_false]
  by_cases hage : start + 2 = tokens.length
  · -- the first clause misses the sex, the second one is complete
    have hword : ¬TokenClass.word.At tokens (start + 2) := fun hat => absurd hat.lt (by omega)
    rw [if_pos hword, if_pos hage, if_pos hage]
    rfl
  rw [if_neg hage, if_neg hage, Outcome.orBetter_noMatch]
  by_cases hword : TokenClass.word.At tokens (start + 2)
  case neg => rw [if_pos hword, if_pos hword]
  have hle : start + 3 ≤ tokens.length := hword.lt
  simp only [hword, not_true_eq_false, if_false, apply_ite (Outcome.behind _),
    Outcome.matched_behind_taken, Outcome.noMatch_behind, Outcome.diagnostic_behind_taken tokens _ hle,
    List.append_nil, Nat.add_assoc, Nat.add_sub_add_left]

end Grammar

namespace Grammar.Builtin

/-- What `demographics` says about a message, by its leading words and the tokens behind them. -/
def demographicsOutcome (tokens : List Token) : Outcome :=
  let words := TokenClass.word.leading tokens
  if words = 0 then .diagnostic ⟨"name", 0⟩
  else if words = tokens.length then .matched (taken tokens 0 words)
  else if ¬TokenClass.delimiter.At tokens words then .noMatch
  else if ¬TokenClass.number.At tokens (words + 1) then .diagnostic ⟨"age", words⟩
  else if ¬TokenClass.word.At tokens (words + 2) then .diagnostic ⟨"sex", words + 1⟩
  else if words + 3 = tokens.length then
    .matched (taken tokens 0 words ++ taken tokens (words + 1) (words + 3))
  else .noMatch

/-- What `demographics` says about a message of any length depends on its leading words and the three
tokens behind them. -/
theorem parse_demographics (tokens : List Token) :
    demographics.parse tokens = demographicsOutcome tokens := by
  have hle := TokenClass.word.leading_le tokens
  have hname := parse_name_clauses tokens [[number.orMissing "age", word.orMissing "sex"]]
  have hdemographics : demographics = seq (word.many.orMissing "name" ::
      [[number.orMissing "age", word.orMissing "sex"]].map clause) := rfl
  rw [hdemographics, hname, List.map_singleton, outcomeFrom_last_age_sex, demographicsOutcome]
  simp only [apply_ite (Outcome.behind _), Outcome.matched_behind_taken, Outcome.noMatch_behind,
    Outcome.diagnostic_behind_taken tokens _ hle, List.append_nil, Nat.sub_zero, Nat.add_zero]

/-- What `demographicsMultipath` says about a message, by its leading words and the tokens behind
them. -/
def demographicsMultipathOutcome (tokens : List Token) : Outcome :=
  let words := TokenClass.word.leading tokens
  if words = 0 then .diagnostic ⟨"name", 0⟩
  else if words = tokens.length then .matched (taken tokens 0 words)
  else if ¬TokenClass.delimiter.At tokens words then .noMatch
  else if ¬TokenClass.number.At tokens (words + 1) then .diagnostic ⟨"age", words⟩
  else if words + 2 = tokens.length then
    .matched (taken tokens 0 words ++ taken tokens (words + 1) (words + 2))
  else if ¬TokenClass.word.At tokens (words + 2) then .diagnostic ⟨"sex", words + 1⟩
  else if words + 3 = tokens.length then
    .matched (taken tokens 0 words ++ taken tokens (words + 1) (words + 3))
  else if ¬TokenClass.delimiter.At tokens (words + 3) then .noMatch
  else if ¬TokenClass.number.At tokens (words + 4) then .diagnostic ⟨"age", words + 2⟩
  else if words + 5 = tokens.length then
    .matched (taken tokens 0 words ++
      (taken tokens (words + 1) (words + 3) ++ taken tokens (words + 4) (words + 5)))
  else .noMatch

/-- What `demographicsMultipath` says about a message of any length depends on its leading words and
the five tokens behind them. A second age may follow the first clause, and the first age may stand
alone, but then the message ends with it. -/
theorem parse_demographicsMultipath (tokens : List Token) :
    demographicsMultipath.parse tokens = demographicsMultipathOutcome tokens := by
  have hle := TokenClass.word.leading_le tokens
  have hname := parse_name_clauses tokens
    [[number.orMissing "age", word.orMissing "sex"], [number.orMissing "age"]]
  have hmultipath : demographicsMultipath = seq (word.many.orMissing "name" ::
      [[number.orMissing "age", word.orMissing "sex"], [number.orMissing "age"]].map clause) := rfl
  rw [hmultipath, hname, List.map_cons, List.map_singleton, outcomeFrom_age_sex_then_age,
    demographicsMultipathOutcome]
  simp only [apply_ite (Outcome.behind _), Outcome.matched_behind_taken, Outcome.noMatch_behind,
    Outcome.diagnostic_behind_taken tokens _ hle, List.append_nil, Nat.sub_zero, Nat.add_zero]

end Grammar.Builtin

end MessageGrammar
