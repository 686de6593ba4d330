import MessageGrammar.Grammar.Builtin
import MessageGrammar.Proofs.Selection
import MessageGrammar.Proofs.Translation

/-!
# Grammars without their tags

A tag gathers tokens under a name and decides nothing: a grammar whose tags are left out has the
same derivations in the same order, with every field taken apart into its tokens. Both grammars say
the same about a message, up to the grouping of tokens in a match. Only the rank of diagnostics
depends on the grouping, since a field counts as one item however many tokens it stands for. So a
grammar without its tags may report another missing field, but only if it ranks two complete
derivations in another order.
-/

namespace MessageGrammar

/-- The items in place of an item when fields are taken apart into their tokens. -/
def Item.expanded : Item → List Item
  | .token t => [.token t]
  | field _ tokens => tokens.map .token
  | diagnostic label => [.diagnostic label]

/-- An item that is no mark is taken apart into its tokens. -/
theorem Item.expanded_eq_map {item : Item} (h : item.isDiagnostic = false) :
    item.expanded = item.tokens.map .token := by
  cases item with
  | token t => rfl
  | field name tokens => rfl
  | diagnostic label => simp [isDiagnostic] at h

/-- Tokens on their own are no marks. -/
theorem Item.isDiagnostic_of_mem_map (tokens : List Token) :
    ∀ item ∈ tokens.map Item.token, item.isDiagnostic = false := by
  intro item hitem
  obtain ⟨t, -, rfl⟩ := List.mem_map.mp hitem
  rfl

/-- Marks stay as they are, and nothing else becomes one. -/
theorem Item.filter_expanded (item : Item) :
    item.expanded.filter isDiagnostic = [item].filter isDiagnostic := by
  cases item with
  | token t => rfl
  | field name tokens =>
    have hnone : (tokens.map Item.token).filter isDiagnostic = [] := by
      simpa using isDiagnostic_of_mem_map tokens
    rw [expanded, hnone]
    rfl
  | diagnostic label => rfl

/-- The derivation with its fields taken apart; it ends in the same place. -/
def Derivation.expanded (derivation : Derivation) : Derivation :=
  ⟨derivation.items.flatMap Item.expanded, derivation.stop⟩

/-- A derivation has the same marks in the same order when its fields are taken apart. -/
theorem Derivation.filter_expanded (derivation : Derivation) :
    derivation.expanded.items.filter Item.isDiagnostic =
      derivation.items.filter Item.isDiagnostic := by
  rw [expanded]
  induction derivation.items with
  | nil => rfl
  | cons item items ih =>
    rw [List.flatMap_cons, List.filter_append, ih, item.filter_expanded, ← List.filter_append]
    rfl

/-- Outcomes of one kind; the items of the second match are those of the first one with the fields
taken apart. -/
def Outcome.ExpandsTo : Outcome → Outcome → Prop
  | matched items, matched items' => items' = items.flatMap Item.expanded
  | diagnostic _, diagnostic _ => True
  | noMatch, noMatch => True
  | _, _ => False

/-- Taking fields apart as a translation of readings; no token changes. -/
def Translation.expansion : Translation where
  token := id
  item := Item.expanded
  kind_token _ := rfl
  item_token _ := rfl
  item_diagnostic _ := rfl

/-- A field taken apart is what its items are when their own fields are taken apart. -/
theorem Translation.expansion_tagged (name : String) (reading : Reading) :
    expansion.reading (reading.tagged name) = expansion.reading reading := by
  unfold Reading.tagged
  split
  next => rfl
  next hnone =>
    have hclean : ∀ item ∈ reading.items, item.isDiagnostic = false := by simpa using hnone
    have hparts : reading.items.flatMap Item.expanded =
        (reading.items.flatMap Item.tokens).map Item.token := by
      rw [List.map_flatMap]
      apply List.flatMap_congr
      intro item hitem
      exact Item.expanded_eq_map (hclean item hitem)
    simp only [Translation.reading, items, expansion, hparts, List.flatMap_cons, List.flatMap_nil,
      List.append_nil, Item.expanded]

namespace Grammar

mutual

/-- The grammar with every tag replaced by what it encloses. -/
def untagged : Grammar → Grammar
  | token kinds => token kinds
  | drop inner => drop (untagged inner)
  | seq parts => seq (untaggedAll parts)
  | alt alternatives => alt (untaggedAll alternatives)
  | first alternatives => first (untaggedAll alternatives)
  | repetition inner min max => repetition (untagged inner) min max
  | missing label => missing label
  | tag _ inner => untagged inner

/-- The grammars of a list, each with every tag replaced by what it encloses. -/
def untaggedAll : List Grammar → List Grammar
  | [] => []
  | grammar :: grammars => untagged grammar :: untaggedAll grammars

end

/-- The grammars of a list lose their tags one by one. -/
theorem untaggedAll_eq_map (grammars : List Grammar) :
    untaggedAll grammars = grammars.map untagged := by
  induction grammars with
  | nil => rfl
  | cons grammar grammars ih => rw [untaggedAll, ih, List.map_cons]

/-- Without its tags a grammar has the readings with the fields taken apart. -/
theorem carries_untagged (grammar : Grammar) :
    Translation.expansion.Carries grammar.read grammar.untagged.read := by
  induction grammar with
  | token kinds => exact Translation.carries_token _ kinds
  | drop inner ih => exact ih.drop
  | seq parts ih =>
    rw [untagged, untaggedAll_eq_map]
    exact Translation.carries_seq untagged ih
  | alt alternatives ih =>
    rw [untagged, untaggedAll_eq_map]
    exact Translation.carries_alt untagged ih
  | first alternatives ih =>
    rw [untagged, untaggedAll_eq_map]
    exact Translation.carries_first untagged ih
  | repetition inner min max ih => exact ih.repetition
  | missing label => exact Translation.carries_missing _ label
  | tag name inner ih =>
    intro tokens
    rw [untagged, ih tokens, read, Enumeration.toList_map, List.map_map]
    apply List.map_congr_left
    intro reading _
    exact (Translation.expansion_tagged name reading).symm

variable (grammar : Grammar) (tokens : List Token)

/-- Without its tags a grammar has the derivations with the fields taken apart. -/
theorem derivationsFrom_untagged (start : Nat) :
    (grammar.untagged.derivationsFrom tokens start).toList =
      (grammar.derivationsFrom tokens start).toList.map Derivation.expanded := by
  have hcarried := grammar.carries_untagged.derivationsFrom tokens start
  have hsame : tokens.map Translation.expansion.token = tokens := List.map_id tokens
  rw [hsame] at hcarried
  exact hcarried

/-- The complete derivations are those with the fields taken apart. -/
theorem explain_untagged :
    grammar.untagged.explain tokens = (grammar.explain tokens).map Derivation.expanded := by
  simp only [explain, complete, derivations, Enumeration.toList_filter, derivationsFrom_untagged,
    List.filter_map]
  rfl

end Grammar

/-- The number of tokens that the items before the first mark stand for. -/
def tokensBeforeMark (items : List Item) : Nat :=
  ((items.takeWhile fun item => !item.isDiagnostic).flatMap Item.tokens).length

/-- The number of tokens that a derivation understood before its first diagnostic. -/
def Derivation.understood (derivation : Derivation) : Nat :=
  tokensBeforeMark derivation.items

/-- With fields taken apart, the first mark is the same one, behind all tokens before it. -/
theorem Diagnostic.find?_expanded (items : List Item) (position index : Nat) :
    find? position (items.flatMap Item.expanded) =
      (find? index items).map fun d => ⟨d.label, position + tokensBeforeMark items⟩ := by
  induction items generalizing position index with
  | nil => rfl
  | cons item items ih =>
    cases hitem : item.isDiagnostic with
    | true =>
      obtain ⟨label, rfl⟩ : ∃ label, item = .diagnostic label := by
        cases item <;> simp_all [Item.isDiagnostic]
      rfl
    | false =>
      have hexpanded := Item.expanded_eq_map hitem
      have hbefore : tokensBeforeMark (item :: items) =
          item.tokens.length + tokensBeforeMark items := by
        simp [tokensBeforeMark, hitem]
      have hclean : find? position (item.tokens.map Item.token) = none :=
        find?_eq_none position (Item.isDiagnostic_of_mem_map item.tokens)
      have hnext : find? index (item :: items) = find? (index + 1) items := by
        cases item <;> simp_all [find?, Item.isDiagnostic]
      rw [List.flatMap_cons, hexpanded, find?_append, hclean, Option.none_or, List.length_map,
        hnext, hbefore, ← Nat.add_assoc]
      exact ih _ _

/-- A derivation with its fields taken apart stands for the same label, at the number of tokens
understood before it. -/
theorem Derivation.diagnostic?_expanded (derivation : Derivation) :
    derivation.expanded.diagnostic? =
      derivation.diagnostic?.map fun d => ⟨d.label, derivation.understood⟩ := by
  have hfound := Diagnostic.find?_expanded derivation.items 0 0
  rw [Nat.zero_add] at hfound
  exact hfound

/-- Two runs over the same derivations, one of them with the fields taken apart, come to outcomes of
one kind if both or neither of them found a diagnostic before. -/
theorem Outcome.select_expanded {found found' : Option Diagnostic} (derivations : List Derivation)
    (h : found.isSome = found'.isSome) :
    (select found (.ofList derivations)).ExpandsTo
      (select found' (.ofList (derivations.map Derivation.expanded))) := by
  induction derivations generalizing found found' with
  | nil => cases found <;> cases found' <;> simp_all [Enumeration.ofList, select, ExpandsTo]
  | cons derivation derivations ih =>
    rw [List.map_cons, Enumeration.ofList, Enumeration.ofList, select, select,
      Derivation.diagnostic?_expanded]
    cases derivation.diagnostic? with
    | none => rfl
    | some next => exact ih rfl

/-- Whether the first diagnostic of a derivation gets ahead of that of another one when fields are
taken apart: by items it is no deeper, by tokens it is no less deep, and by one of them the two are
not level. -/
def Derivation.Overtakes (derivation other : Derivation) : Prop :=
  ∃ index position, derivation.firstDiagnostic = some index ∧
    other.firstDiagnostic = some position ∧ index ≤ position ∧
    other.understood ≤ derivation.understood ∧
    (index < position ∨ other.understood < derivation.understood)

/-- With fields taken apart, the first diagnostic is behind the tokens understood before it. -/
theorem Derivation.firstDiagnostic_expanded {derivation : Derivation} {position : Nat}
    (h : derivation.firstDiagnostic = some position) :
    derivation.expanded.firstDiagnostic = some derivation.understood := by
  obtain ⟨label, hlabel⟩ := exists_diagnostic? h
  rw [firstDiagnostic_eq_map, diagnostic?_expanded, hlabel]
  rfl

/-- Two elements at which a list is split: the first one is before the second, is the second, or has
the second before it. -/
theorem mem_or_eq_or_mem_of_append_eq {α : Type} {before after earlier later : List α} {a b : α}
    (h : earlier ++ a :: later = before ++ b :: after) : a ∈ before ∨ a = b ∨ b ∈ earlier := by
  rcases List.append_eq_append_iff.mp h with ⟨between, rfl, hrest⟩ | ⟨between, rfl, hrest⟩
  · cases between with
    | nil => exact .inr (.inl (List.cons.inj hrest).1)
    | cons c between => simp [(List.cons.inj hrest).1]
  · cases between with
    | nil => exact .inr (.inl (List.cons.inj hrest).1.symm)
    | cons c between => simp [(List.cons.inj hrest).1]

/-- The derivation chosen with the fields taken apart is the one chosen before, or it overtakes that
one. -/
theorem FirstDeepest.eq_or_overtakes {derivations : List Derivation}
    {reported chosen : Derivation} {position depth : Nat}
    (h : FirstDeepest derivations reported position)
    (h' : FirstDeepest (derivations.map Derivation.expanded) chosen depth) :
    ∃ derivation ∈ derivations, derivation.expanded = chosen ∧
      (derivation = reported ∨ derivation.Overtakes reported) := by
  have hposition := h.position_le
  have hdepth := h'.position_le
  obtain ⟨before, after, hsplit, hreported, hbefore, -⟩ := h
  obtain ⟨before', after', hsplit', hchosen, hbefore', -⟩ := h'
  obtain ⟨earlier, rest, hparts, rfl, hrest⟩ := List.map_eq_append_iff.mp hsplit'
  obtain ⟨derivation, later, rfl, rfl, -⟩ := List.map_eq_cons_iff.mp hrest
  have hmem : derivation ∈ derivations := by simp [hparts]
  obtain ⟨index, hindex, hfirst⟩ := hposition derivation hmem
  have hunderstood : derivation.understood = depth := by
    have hsame := Derivation.firstDiagnostic_expanded hfirst
    rw [hchosen] at hsame
    exact (Option.some.inj hsame).symm
  -- the first diagnostic of the reported derivation with its fields taken apart
  have hreported' := Derivation.firstDiagnostic_expanded hreported
  refine ⟨derivation, hmem, rfl, ?_⟩
  rcases mem_or_eq_or_mem_of_append_eq (hparts.symm.trans hsplit) with hd | heq | hr
  · obtain ⟨index', hlt, hfirst'⟩ := hbefore derivation hd
    have hmem' : reported.expanded ∈ derivations.map Derivation.expanded :=
      List.mem_map_of_mem (by simp [hsplit])
    obtain ⟨depth', hle, hdeep⟩ := hdepth _ hmem'
    obtain rfl := Option.some.inj (hreported'.symm.trans hdeep)
    exact .inr ⟨index', position, hfirst', hreported, Nat.le_of_lt hlt, by omega, .inl hlt⟩
  · exact .inl heq
  · obtain ⟨depth', hlt, hdeep⟩ := hbefore' _ (List.mem_map_of_mem hr)
    obtain rfl := Option.some.inj (hreported'.symm.trans hdeep)
    exact .inr ⟨index, position, hfirst, hreported, hindex, by omega, .inr (by omega)⟩

namespace Grammar

/-- The outcomes with and without tags are of one kind, with the fields of a match taken apart. -/
theorem parse_expandsTo (grammar : Grammar) (tokens : List Token) :
    (grammar.parse tokens).ExpandsTo (grammar.untagged.parse tokens) := by
  rw [parse_eq_select, parse_eq_select, explain_untagged]
  exact Outcome.select_expanded _ rfl

/-- Tags group tokens and do nothing else. From every start, the derivations of the grammar without
its tags are those of the grammar in the same order, each with its fields taken apart, which leaves
its end and its diagnostics as they are; and the outcomes are of one kind, with the fields of a match
taken apart. -/
theorem derivations_and_outcome_untagged (grammar : Grammar) (tokens : List Token) :
    (∀ start, (grammar.untagged.derivationsFrom tokens start).toList =
      (grammar.derivationsFrom tokens start).toList.map Derivation.expanded) ∧
    (∀ derivation : Derivation, derivation.expanded.stop = derivation.stop ∧
      derivation.expanded.items.filter Item.isDiagnostic =
        derivation.items.filter Item.isDiagnostic) ∧
    (grammar.parse tokens).ExpandsTo (grammar.untagged.parse tokens) := by
  refine ⟨grammar.derivationsFrom_untagged tokens, ?_, grammar.parse_expandsTo tokens⟩
  intro derivation
  exact ⟨rfl, derivation.filter_expanded⟩

/-- Where a diagnostic is reported, one is reported without the tags, at the number of tokens
understood before it. It has the same label, unless the complete derivation that it comes from, which
is the first deepest one with its fields taken apart, overtakes the first deepest one of the grammar
with its tags. -/
theorem label_kept_unless_overtaken {grammar : Grammar} {tokens : List Token} {label : String}
    {position : Nat} (h : grammar.parse tokens = .diagnostic ⟨label, position⟩) :
    ∃ reported ∈ grammar.explain tokens, ∃ chosen ∈ grammar.explain tokens, ∃ label' index,
      FirstDeepest (grammar.explain tokens) reported position ∧
      FirstDeepest (grammar.untagged.explain tokens) chosen.expanded chosen.understood ∧
      reported.diagnostic? = some ⟨label, position⟩ ∧
      chosen.diagnostic? = some ⟨label', index⟩ ∧
      grammar.untagged.parse tokens = .diagnostic ⟨label', chosen.understood⟩ ∧
      (label' = label ∨ chosen.Overtakes reported) := by
  obtain ⟨reported, hdeepest, hlabel⟩ := (grammar.parse_eq_diagnostic_iff tokens _ _).mp h
  have hreported := Derivation.diagnostic?_eq_some hdeepest.firstDiagnostic hlabel
  -- the grammar without its tags reports a diagnostic as well
  obtain ⟨⟨label', depth⟩, huntagged⟩ : ∃ d, grammar.untagged.parse tokens = .diagnostic d := by
    have hkind := grammar.parse_expandsTo tokens
    rw [h] at hkind
    cases houtcome : grammar.untagged.parse tokens with
    | diagnostic d => exact ⟨d, rfl⟩
    | matched items => simp [houtcome, Outcome.ExpandsTo] at hkind
    | noMatch => simp [houtcome, Outcome.ExpandsTo] at hkind
  obtain ⟨expanded, hdeepest', hlabel'⟩ :=
    (grammar.untagged.parse_eq_diagnostic_iff tokens _ _).mp huntagged
  have hexpanded := Derivation.diagnostic?_eq_some hdeepest'.firstDiagnostic hlabel'
  -- both grammars choose from the same derivations, the one without tags with the fields taken apart
  obtain ⟨chosen, hmem, rfl, hchosen⟩ :=
    hdeepest.eq_or_overtakes (grammar.explain_untagged tokens ▸ hdeepest')
  rw [Derivation.diagnostic?_expanded, Option.map_eq_some_iff] at hexpanded
  obtain ⟨d, hd, heq⟩ := hexpanded
  obtain ⟨rfl, rfl⟩ := Diagnostic.mk.inj heq
  refine ⟨reported, hdeepest.mem, chosen, hmem, d.label, d.position, hdeepest, hdeepest', hreported,
    hd, huntagged, ?_⟩
  rcases hchosen with rfl | hovertakes
  · rw [hreported] at hd
    exact .inl (congrArg Diagnostic.label (Option.some.inj hd)).symm
  · exact .inr hovertakes

/-- Without the sex, the same field is missing with and without the names of the fields. -/
theorem missing_sex_without_tags :
    Builtin.taggedDemographics.parse
        [.word "Ann", .word "Lee", .delimiter ',', .integer 34] = .diagnostic ⟨"sex", 2⟩ ∧
      ∃ reported ∈ Builtin.taggedDemographics.explain
          [.word "Ann", .word "Lee", .delimiter ',', .integer 34],
        ∃ chosen ∈ Builtin.taggedDemographics.explain
          [.word "Ann", .word "Lee", .delimiter ',', .integer 34], ∃ label' index,
          FirstDeepest (Builtin.taggedDemographics.explain
            [.word "Ann", .word "Lee", .delimiter ',', .integer 34]) reported 2 ∧
          FirstDeepest (Builtin.taggedDemographics.untagged.explain
            [.word "Ann", .word "Lee", .delimiter ',', .integer 34]) chosen.expanded
            chosen.understood ∧
          reported.diagnostic? = some ⟨"sex", 2⟩ ∧
          chosen.diagnostic? = some ⟨label', index⟩ ∧
          Builtin.taggedDemographics.untagged.parse
              [.word "Ann", .word "Lee", .delimiter ',', .integer 34] =
            .diagnostic ⟨label', chosen.understood⟩ ∧
          (label' = "sex" ∨ chosen.Overtakes reported) := by
  have hparse : Builtin.taggedDemographics.parse
      [.word "Ann", .word "Lee", .delimiter ',', .integer 34] = .diagnostic ⟨"sex", 2⟩ := by cbv
  exact ⟨hparse, label_kept_unless_overtaken hparse⟩

/-- Two words and a missing age, or a name of three words and a missing sex. -/
def ageOrSex : Grammar :=
  word &&& word &&& missing "age" ||| (word.times 3).tagged "name" &&& missing "sex"

/-- A name of three words counts as one item, so that the age behind two words is reported; by its
tokens the sex is. -/
theorem label_changed_without_tags :
    ¬∀ (grammar : Grammar) (tokens : List Token) (label : String) (position : Nat),
      grammar.parse tokens = .diagnostic ⟨label, position⟩ →
        ∃ position', grammar.untagged.parse tokens = .diagnostic ⟨label, position'⟩ := by
  intro h
  have htagged : ageOrSex.parse [.word "Ann", .word "Mary", .word "Lee"] =
      .diagnostic ⟨"age", 2⟩ := by cbv
  have huntagged : ageOrSex.untagged.parse [.word "Ann", .word "Mary", .word "Lee"] =
      .diagnostic ⟨"sex", 3⟩ := by cbv
  obtain ⟨position', hsame⟩ := h _ _ _ _ htagged
  simp [huntagged] at hsame

end Grammar

end MessageGrammar
