import MessageGrammar.Grammar.Builtin
import MessageGrammar.Proofs.Selection
import MessageGrammar.Proofs.Translation

/-!
# Matching looks at kinds

No payload has an influence on matching: if every token of a message is replaced by one of the same
kind, the derivations are the same ones in the same order with the tokens replaced inside them. Two
messages with the same kinds have one message in common to which both can be changed, so their
outcomes agree up to the tokens in the items.
-/

namespace MessageGrammar

/-- The item with its tokens replaced; names and labels stay. -/
def Item.mapTokens (f : Token → Token) : Item → Item
  | .token t => .token (f t)
  | field name tokens => .field name (tokens.map f)
  | diagnostic label => .diagnostic label

/-- The derivation with the tokens of its items replaced; it ends in the same place. -/
def Derivation.mapTokens (f : Token → Token) (derivation : Derivation) : Derivation :=
  ⟨derivation.items.map (Item.mapTokens f), derivation.stop⟩

/-- The outcome with the tokens of its items replaced; a diagnostic stays as it is. -/
def Outcome.mapTokens (f : Token → Token) : Outcome → Outcome
  | matched items => .matched (items.map (Item.mapTokens f))
  | diagnostic d => .diagnostic d
  | noMatch => .noMatch

/-- Outcomes of one kind; if a field is missing, it is the same field in the same place. -/
def Outcome.Alike : Outcome → Outcome → Prop
  | matched _, matched _ => True
  | diagnostic d, diagnostic d' => d = d'
  | noMatch, noMatch => True
  | _, _ => False

/-- A token of the kind, the same for all tokens of that kind. -/
def TokenKind.sample : TokenKind → Token
  | word => .word ""
  | integer => .integer 0
  | float => .float 0
  | delimiter => .delimiter ','

/-- The sample of the token's kind in place of the token. -/
def Token.masked (token : Token) : Token :=
  token.kind.sample

/-- A masked token is of the same kind. -/
theorem Token.kind_masked (token : Token) : token.masked.kind = token.kind := by
  cases token <;> rfl

section Payloads

variable (f : Token → Token)

/-- A mark stays a mark, and nothing else becomes one. -/
theorem Item.isDiagnostic_mapTokens (item : Item) :
    (item.mapTokens f).isDiagnostic = item.isDiagnostic := by
  cases item <;> rfl

/-- The tokens of the item are replaced. -/
theorem Item.tokens_mapTokens (item : Item) : (item.mapTokens f).tokens = item.tokens.map f := by
  cases item <;> rfl

/-- A field of the replaced tokens is the field with its tokens replaced. -/
theorem Item.flatMap_tokens_mapTokens (items : List Item) :
    (items.map (Item.mapTokens f)).flatMap Item.tokens = (items.flatMap Item.tokens).map f := by
  simp only [List.flatMap_map, List.map_flatMap, Item.tokens_mapTokens]

/-- The search among the items finds the same diagnostic in the same place. -/
theorem Diagnostic.find?_mapTokens (items : List Item) (position : Nat) :
    Diagnostic.find? position (items.map (Item.mapTokens f)) = Diagnostic.find? position items := by
  induction items generalizing position with
  | nil => rfl
  | cons item items ih =>
    cases item with
    | token t => exact ih (position + 1)
    | field name tokens => exact ih (position + 1)
    | diagnostic label => rfl

/-- The first diagnostic of a derivation stays the first, in the same place. -/
theorem Derivation.diagnostic?_mapTokens (derivation : Derivation) :
    (derivation.mapTokens f).diagnostic? = derivation.diagnostic? :=
  Diagnostic.find?_mapTokens f derivation.items 0

/-- The same derivation is selected. -/
theorem Outcome.select_mapTokens (found : Option Diagnostic) (derivations : List Derivation) :
    Outcome.select found (.ofList (derivations.map (Derivation.mapTokens f))) =
      (Outcome.select found (.ofList derivations)).mapTokens f := by
  induction derivations generalizing found with
  | nil => cases found <;> rfl
  | cons derivation derivations ih =>
    rw [List.map_cons, Enumeration.ofList, Enumeration.ofList, Outcome.select, Outcome.select,
      Derivation.diagnostic?_mapTokens]
    cases derivation.diagnostic? with
    | none => rfl
    | some next => exact ih _

variable (hf : ∀ t, (f t).kind = t.kind)

/-- The replacement of tokens as a translation of readings. -/
def Translation.payloads : Translation where
  token := f
  item := fun item => [item.mapTokens f]
  kind_token := hf
  item_token _ := rfl
  item_diagnostic _ := rfl

/-- Items are replaced one by one. -/
theorem Translation.items_payloads (items : List Item) :
    (Translation.payloads f hf).items items = items.map (Item.mapTokens f) :=
  List.map_eq_flatMap.symm

/-- Derivations are replaced with their items. -/
theorem Translation.derivation_payloads (derivation : Derivation) :
    (Translation.payloads f hf).derivation derivation = derivation.mapTokens f := by
  rw [Translation.derivation, Translation.items_payloads]
  rfl

/-- A field is made of the replaced tokens where it is made of the tokens. -/
theorem Translation.tagged_reading_payloads (name : String) (reading : Reading) :
    ((Translation.payloads f hf).reading reading).tagged name =
      (Translation.payloads f hf).reading (reading.tagged name) := by
  have hmarked : (reading.items.map (Item.mapTokens f)).any Item.isDiagnostic =
      reading.items.any Item.isDiagnostic := by
    rw [List.any_map]
    congr 1
    funext item
    exact item.isDiagnostic_mapTokens f
  simp only [Translation.reading, Reading.tagged, Translation.items_payloads, hmarked]
  split
  · rfl
  · simp only [Item.flatMap_tokens_mapTokens]
    rfl

namespace Grammar

/-- Every grammar gives the replaced readings for the replaced tokens. -/
theorem carries_payloads (grammar : Grammar) :
    (Translation.payloads f hf).Carries grammar.read grammar.read := by
  induction grammar with
  | token kinds => exact Translation.carries_token _ kinds
  | drop inner ih => exact ih.drop
  | seq parts ih =>
    have hall := Translation.carries_seq id ih
    rw [List.map_id] at hall
    exact hall
  | alt alternatives ih =>
    have hall := Translation.carries_alt id ih
    rw [List.map_id] at hall
    exact hall
  | first alternatives ih =>
    have hall := Translation.carries_first id ih
    rw [List.map_id] at hall
    exact hall
  | repetition inner min max ih => exact ih.repetition
  | missing label => exact Translation.carries_missing _ label
  | tag name inner ih =>
    intro tokens
    simp only [read, Enumeration.toList_map, ih tokens, List.map_map]
    apply List.map_congr_left
    intro reading _
    exact Translation.tagged_reading_payloads f hf name reading

include hf

/-- The derivations of the replaced tokens are the derivations with the tokens replaced. -/
theorem derivationsFrom_map (grammar : Grammar) (tokens : List Token) (start : Nat) :
    (grammar.derivationsFrom (tokens.map f) start).toList =
      (grammar.derivationsFrom tokens start).toList.map (Derivation.mapTokens f) := by
  have hcarried := (grammar.carries_payloads f hf).derivationsFrom tokens start
  rwa [funext (Translation.derivation_payloads f hf)] at hcarried

/-- The complete derivations stay complete, and no others become so. -/
theorem explain_map (grammar : Grammar) (tokens : List Token) :
    grammar.explain (tokens.map f) = (grammar.explain tokens).map (Derivation.mapTokens f) := by
  simp only [explain, complete, derivations, Enumeration.toList_filter, derivationsFrom_map f hf,
    List.length_map, List.filter_map]
  rfl

/-- The outcome for the replaced tokens is the outcome with the tokens replaced. -/
theorem parse_map (grammar : Grammar) (tokens : List Token) :
    grammar.parse (tokens.map f) = (grammar.parse tokens).mapTokens f := by
  rw [parse_eq_select, parse_eq_select, explain_map f hf, Outcome.select_mapTokens]

end Grammar

end Payloads

/-- Outcomes that differ in the tokens of their items only are alike. -/
theorem Outcome.alike_of_mapTokens_eq {f : Token → Token} {first second : Outcome}
    (h : first.mapTokens f = second.mapTokens f) : first.Alike second := by
  cases first <;> cases second <;> simp_all [Outcome.mapTokens, Outcome.Alike]

namespace Grammar

/-- Matching looks at kinds only. For a message whose tokens are replaced by tokens of their kinds,
a grammar has the derivations with the tokens replaced in their items, in the same order and from
every start; and for two messages of the same kinds it has outcomes of the same kind, with the same
missing field in the same place. -/
theorem derivations_and_outcome_by_kinds (grammar : Grammar) :
    (∀ f : Token → Token, (∀ t, (f t).kind = t.kind) → ∀ tokens start,
      (grammar.derivationsFrom (tokens.map f) start).toList =
        (grammar.derivationsFrom tokens start).toList.map (Derivation.mapTokens f)) ∧
    ∀ first second : List Token, first.map Token.kind = second.map Token.kind →
      (grammar.parse first).Alike (grammar.parse second) := by
  refine ⟨fun f hf tokens start => grammar.derivationsFrom_map f hf tokens start, ?_⟩
  intro first second hkinds
  -- both messages become the same one when their payloads are masked
  have hmasked : first.map Token.masked = second.map Token.masked := by
    have hsamples := congrArg (List.map TokenKind.sample) hkinds
    rwa [List.map_map, List.map_map] at hsamples
  apply Outcome.alike_of_mapTokens_eq (f := Token.masked)
  rw [← grammar.parse_map Token.masked Token.kind_masked,
    ← grammar.parse_map Token.masked Token.kind_masked, hmasked]

/-- Without the sex the outcome is the same diagnostic for all names, delimiters and ages. -/
theorem missing_sex_by_kinds :
    (∀ t : Token, t.masked.kind = t.kind) ∧
      (Builtin.demographics.derivationsFrom
          [Token.masked (.word "Ann"), Token.masked (.delimiter ','),
            Token.masked (.integer 34)] 0).toList =
        (Builtin.demographics.derivationsFrom
          [.word "Ann", .delimiter ',', .integer 34] 0).toList.map
            (Derivation.mapTokens Token.masked) ∧
      Builtin.demographics.parse [.word "Ann", .delimiter ',', .integer 34] =
        .diagnostic ⟨"sex", 2⟩ ∧
      (Builtin.demographics.parse [.word "Ann", .delimiter ',', .integer 34]).Alike
        (Builtin.demographics.parse [.word "Lee", .delimiter ';', .integer 7]) := by
  obtain ⟨hderivations, houtcome⟩ := derivations_and_outcome_by_kinds Builtin.demographics
  have hmasked := hderivations Token.masked Token.kind_masked
    [.word "Ann", .delimiter ',', .integer 34] 0
  have hparse : Builtin.demographics.parse [.word "Ann", .delimiter ',', .integer 34] =
      .diagnostic ⟨"sex", 2⟩ := by cbv
  exact ⟨Token.kind_masked, hmasked, hparse, houtcome _ _ rfl⟩

end Grammar

end MessageGrammar
