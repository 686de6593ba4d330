import MessageGrammar.Grammar.Builtin
import MessageGrammar.Proofs.Coverage
import MessageGrammar.Proofs.Passages

/-!
# Positions of diagnostics

The position of a diagnostic counts the items before it. A token is one item, and so is a field,
however many tokens it has; if a field may have none, there can be more items than tokens. Where
every tag takes a token, a derivation has no more items than tokens, not counting marks, and no
diagnostic is reported behind the end of the message. A test on the form of a grammar tells that it
takes a token.
-/

namespace MessageGrammar

namespace Grammar

/-- Every derivation takes a token, in all messages and from all of their positions. -/
def Advances (grammar : Grammar) : Prop :=
  ∀ tokens, Keeps tokens (fun start _ stop => start < stop) grammar

/-- What a tag groups takes a token. -/
def FieldAdvances : Grammar → Prop
  | tag _ inner => inner.Advances
  | _ => True

mutual

/-- Whether the form of a grammar tells that it takes a token: some part of a sequence does, all
alternatives do, or an iteration does and is needed. -/
def takesToken : Grammar → Bool
  | token _ => true
  | drop inner | tag _ inner => takesToken inner
  | seq parts => anyTakesToken parts
  | alt alternatives | first alternatives => allTakeToken alternatives
  | repetition inner min _ => min != 0 && takesToken inner
  | missing _ => false

/-- Whether some grammar of a list takes a token by its form. -/
def anyTakesToken : List Grammar → Bool
  | [] => false
  | grammar :: grammars => takesToken grammar || anyTakesToken grammars

/-- Whether all grammars of a list take a token by their forms. -/
def allTakeToken : List Grammar → Bool
  | [] => true
  | grammar :: grammars => takesToken grammar && allTakeToken grammars

end

theorem allTakeToken_iff {grammars : List Grammar} :
    allTakeToken grammars = true ↔ ∀ grammar ∈ grammars, grammar.takesToken = true := by
  induction grammars with
  | nil => simp [allTakeToken]
  | cons grammar grammars ih => simp [allTakeToken, ih]

/-- A sequence takes a token if one of its parts does. -/
theorem keeps_seq_of_advances {parts : List Grammar} {tokens : List Token}
    (ih : ∀ part ∈ parts, part.takesToken = true →
      Keeps tokens (fun start _ stop => start < stop) part)
    (h : anyTakesToken parts = true) :
    Keeps tokens (fun start _ stop => start < stop) (seq parts) := by
  induction parts with
  | nil => exact absurd h Bool.false_ne_true
  | cons part parts ihp =>
    intro start hs items stop hyields
    obtain ⟨first, middle, others, hfirst, hothers, -⟩ := yields_seq_cons_iff.mp hyields
    have hmiddle := hfirst.bounds hs
    rw [anyTakesToken, Bool.or_eq_true] at h
    rcases h with hpart | hparts
    · have hmoves := ih part List.mem_cons_self hpart start hs first middle hfirst
      exact Nat.lt_of_lt_of_le hmoves (hothers.bounds hmiddle.2).1
    · have hmoves := ihp (fun other hother => ih other (List.mem_cons_of_mem part hother)) hparts
        middle hmiddle.2 others stop hothers
      exact Nat.lt_of_le_of_lt hmiddle.1 hmoves

/-- A grammar that takes a token by its form does so in every derivation. -/
theorem advances_of_takesToken {grammar : Grammar} (h : grammar.takesToken = true) :
    grammar.Advances := by
  intro tokens
  induction grammar with
  | token kinds =>
    intro start _ items stop hyields
    obtain ⟨t, -, -, -, rfl⟩ := yields_token_iff.mp hyields
    exact Nat.lt_succ_self start
  | drop inner ih =>
    intro start hs items stop hyields
    obtain ⟨-, dropped, hdropped⟩ := yields_drop_iff.mp hyields
    exact ih h start hs dropped stop hdropped
  | seq parts ih => exact keeps_seq_of_advances ih h
  | alt alternatives ih =>
    exact keeps_alt fun alternative hmem => ih alternative hmem (allTakeToken_iff.mp h _ hmem)
  | first alternatives ih =>
    exact keeps_first fun alternative hmem => ih alternative hmem (allTakeToken_iff.mp h _ hmem)
  | repetition inner min max ih =>
    rw [takesToken, Bool.and_eq_true, bne_iff_ne] at h
    intro start hs items stop hyields
    obtain ⟨n, hleast, -, hrun⟩ := yields_repetition_iff.mp hyields
    cases hrun with
    | none => exact absurd (UInt64.toNat_inj.mp (Nat.le_zero.mp hleast)) h.1
    | more iteration _ later =>
      have hmoves := ih h.2 start hs _ _ iteration
      have hmiddle := (iteration.bounds hs).2
      exact Nat.lt_of_lt_of_le hmoves (bounds_of_iterations hmiddle later).1
  | missing label => exact absurd h Bool.false_ne_true
  | tag name inner ih =>
    intro start hs items stop hyields
    obtain ⟨found, hfound, -⟩ := yields_tag_iff.mp hyields
    exact ih h start hs found stop hfound

/-- What a tag groups takes a token by its form. -/
def FieldTakesToken : Grammar → Prop
  | tag _ inner => inner.takesToken = true
  | _ => True

instance : DecidablePred FieldTakesToken
  | tag _ inner => inferInstanceAs (Decidable (inner.takesToken = true))
  | token _ | drop _ | seq _ | alt _ | first _ | repetition _ _ _ | missing _ => isTrue trivial

/-- The form of a grammar tells that its fields take tokens. -/
theorem everywhere_fieldAdvances {grammar : Grammar} (h : grammar.Everywhere FieldTakesToken) :
    grammar.Everywhere FieldAdvances := by
  apply h.imp
  intro node hnode
  cases node with
  | tag name inner => exact advances_of_takesToken hnode
  | _ => trivial

/-- There are no more items than tokens from a start up to a stop, not counting marks. -/
def ItemsWithin : Passage := fun start items stop =>
  start + items.countP (fun item => !item.isDiagnostic) ≤ stop

/-- Two passages with no more items than tokens have no more together. -/
theorem composable_itemsWithin (length : Nat) : Composable length ItemsWithin where
  stay _ _ := Nat.le_refl _
  join _ _ _ hfirst hothers := by
    rw [ItemsWithin] at hfirst hothers ⊢
    rw [List.countP_append]
    omega

/-- Where fields take tokens, there are no more items than tokens in any derivation. -/
theorem keeps_itemsWithin (tokens : List Token) {grammar : Grammar}
    (h : grammar.Everywhere FieldAdvances) : Keeps tokens ItemsWithin grammar := by
  apply keeps_of_everywhere (composable_itemsWithin tokens.length) (h := h)
  case htoken =>
    intro kinds start _ items stop hyields
    obtain ⟨t, -, -, rfl, rfl⟩ := yields_token_iff.mp hyields
    exact Nat.le_refl (start + 1)
  case hdrop =>
    intro inner _ _ start hs items stop hyields
    obtain ⟨rfl, -⟩ := yields_drop_iff.mp hyields
    exact (hyields.bounds hs).1
  case hmissing =>
    intro label start hs items stop hyields
    obtain ⟨rfl, hstop, -⟩ := (yields_missing_iff hs).mp hyields
    exact hstop
  case htag =>
    intro name inner hfield hinner start hs items stop hyields
    obtain ⟨found, hfound, ⟨-, rfl⟩ | ⟨-, rfl⟩⟩ := yields_tag_iff.mp hyields
    · exact hfield tokens start hs found stop hfound
    · exact hinner start hs items stop hfound

end Grammar

/-- The items before the first diagnostic are no marks. -/
theorem Derivation.firstDiagnostic_le_countP {derivation : Derivation} {position : Nat}
    (h : derivation.firstDiagnostic = some position) :
    position ≤ derivation.items.countP fun item => !item.isDiagnostic := by
  obtain ⟨hlt, -, hbefore⟩ := List.findIdx?_eq_some_iff_getElem.mp h
  have hclean : ∀ item ∈ derivation.items.take position, (!item.isDiagnostic) = true := by
    intro item hitem
    obtain ⟨index, hindex, rfl⟩ := List.mem_take_iff_getElem.mp hitem
    simpa using hbefore index (by omega)
  calc position = (derivation.items.take position).length := by
        rw [List.length_take, Nat.min_eq_left (Nat.le_of_lt hlt)]
    _ = (derivation.items.take position).countP fun item => !item.isDiagnostic :=
        (List.countP_eq_length.mpr hclean).symm
    _ ≤ derivation.items.countP fun item => !item.isDiagnostic :=
        (List.take_sublist _ _).countP_le

namespace Grammar

/-- If every tag takes a token, a diagnostic is not positioned behind the end of the message; more
than that, no derivation has more items than the tokens from its start to its stop, not counting
marks. -/
theorem diagnostic_position_le_length {grammar : Grammar} (h : grammar.Everywhere FieldAdvances)
    (tokens : List Token) :
    (∀ diagnostic, grammar.parse tokens = .diagnostic diagnostic →
      diagnostic.position ≤ tokens.length) ∧
    ∀ start ≤ tokens.length, ∀ derivation ∈ (grammar.derivationsFrom tokens start).toList,
      start + derivation.items.countP (fun item => !item.isDiagnostic) ≤ derivation.stop := by
  have hwithin : ∀ start ≤ tokens.length,
      ∀ derivation ∈ (grammar.derivationsFrom tokens start).toList,
        start + derivation.items.countP (fun item => !item.isDiagnostic) ≤ derivation.stop :=
    fun start hs derivation hmem => keeps_itemsWithin tokens h start hs _ _ hmem
  refine ⟨?_, hwithin⟩
  rintro ⟨label, position⟩ hparse
  obtain ⟨chosen, hdeepest, -⟩ := (grammar.parse_eq_diagnostic_iff tokens label position).mp hparse
  have hbefore := Derivation.firstDiagnostic_le_countP hdeepest.firstDiagnostic
  have hcomplete := (mem_explain_iff.mp hdeepest.mem).1
  have hcount := hwithin 0 (Nat.zero_le _) _ hcomplete
  rw [Nat.zero_add] at hcount
  exact Nat.le_trans hbefore hcount

/-- Name, age and sex are fields with tokens, so that a missing sex behind two fields is reported
within the message. -/
theorem missing_sex_within_message :
    Builtin.taggedDemographics.Everywhere FieldAdvances ∧
      Builtin.taggedDemographics.parse [.word "Ann", .word "Lee", .delimiter ',', .integer 34] =
        .diagnostic ⟨"sex", 2⟩ ∧
      2 ≤ [Token.word "Ann", .word "Lee", .delimiter ',', .integer 34].length := by
  have hfields : Builtin.taggedDemographics.Everywhere FieldAdvances :=
    everywhere_fieldAdvances (by decide)
  have hparse : Builtin.taggedDemographics.parse
      [.word "Ann", .word "Lee", .delimiter ',', .integer 34] = .diagnostic ⟨"sex", 2⟩ := by cbv
  exact ⟨hfields, hparse, (diagnostic_position_le_length hfields _).1 _ hparse⟩

end Grammar

end MessageGrammar
