import Mathlib.Logic.Relation
import MessageGrammar.Proofs.KeptTokens

/-!
# Where the items of a derivation come from

Whatever a grammar derives goes back to the message and to the grammar. The tokens of the items stand
between the start and the stop of the derivation, in the same order and none of them twice; all of
them are there if nothing is dropped and nothing may be missing. A token was accepted by a class of
the grammar, a field has the name of one of its tags, and a mark the label of one of its missing
fields, and these nodes are outside of everything that the grammar drops.
-/

namespace MessageGrammar

namespace Grammar

/-- The parts of a grammar whose items it passes on. -/
def exposedParts : Grammar → List Grammar
  | drop _ => []
  | grammar => grammar.parts

/-- A grammar passes on the items of its parts only. -/
theorem mem_parts_of_mem_exposedParts {grammar part : Grammar} (h : part ∈ grammar.exposedParts) :
    part ∈ grammar.parts := by
  cases grammar with
  | drop inner => exact absurd h List.not_mem_nil
  | _ => exact h

/-- A node is the grammar itself or stands inside it, and nothing around it is dropped. -/
def Exposes : Grammar → Grammar → Prop :=
  Relation.ReflTransGen fun grammar part => part ∈ grammar.exposedParts

/-- A grammar exposes itself. -/
theorem Exposes.refl (grammar : Grammar) : grammar.Exposes grammar :=
  Relation.ReflTransGen.refl

/-- What a part exposes is exposed, if the part is. -/
theorem Exposes.of_part {grammar part node : Grammar} (hpart : part ∈ grammar.exposedParts)
    (h : part.Exposes node) : grammar.Exposes node :=
  Relation.ReflTransGen.head hpart h

/-- What holds everywhere in a grammar holds of the nodes that it exposes. -/
theorem Everywhere.of_exposes {holds : Grammar → Prop} {grammar node : Grammar}
    (h : grammar.Everywhere holds) (hnode : grammar.Exposes node) : holds node := by
  induction hnode using Relation.ReflTransGen.head_induction_on with
  | refl => exact h.here
  | head hpart _ ih => exact ih (h.inside (mem_parts_of_mem_exposedParts hpart))

end Grammar

/-- An item goes back to a node that a grammar exposes: a token to a class that accepts it, a field
to a tag with its name, a mark to a missing field with its label. -/
def Item.ComesFrom (grammar : Grammar) : Item → Prop
  | .token t => ∃ kinds, grammar.Exposes (.token kinds) ∧ kinds.accepts t.kind = true
  | field name _ => ∃ inner, grammar.Exposes (.tag name inner)
  | diagnostic label => grammar.Exposes (.missing label)

/-- An item of a part is an item of the grammar, if the part is exposed. -/
theorem Item.ComesFrom.of_part {grammar part : Grammar} {item : Item}
    (hpart : part ∈ grammar.exposedParts) (h : item.ComesFrom part) : item.ComesFrom grammar := by
  cases item with
  | token t =>
    obtain ⟨kinds, hkinds, haccepts⟩ := h
    exact ⟨kinds, hkinds.of_part hpart, haccepts⟩
  | field name tokens =>
    obtain ⟨inner, hinner⟩ := h
    exact ⟨inner, hinner.of_part hpart⟩
  | diagnostic label => exact Grammar.Exposes.of_part hpart h

namespace Grammar

variable {tokens : List Token}

/-- All items of a grammar come from it. -/
def ItemsComeFrom (grammar : Grammar) : Passage := fun _ items _ =>
  ∀ item ∈ items, item.ComesFrom grammar

/-- The items of an exposed part come from the grammar. -/
theorem Keeps.itemsComeFrom_of_part {grammar part : Grammar}
    (h : Keeps tokens (ItemsComeFrom part) part) (hpart : part ∈ grammar.exposedParts) :
    Keeps tokens (ItemsComeFrom grammar) part := by
  intro start hs items stop hyields item hitem
  exact (h start hs items stop hyields item hitem).of_part hpart

/-- Every item that a grammar derives comes from a node that the grammar exposes. -/
theorem keeps_itemsComeFrom (tokens : List Token) (grammar : Grammar) :
    Keeps tokens (ItemsComeFrom grammar) grammar := by
  induction grammar with
  | token kinds =>
    intro start _ items stop hyields
    obtain ⟨t, -, haccepts, rfl, -⟩ := yields_token_iff.mp hyields
    exact List.forall_mem_singleton.mpr ⟨kinds, .refl _, haccepts⟩
  | drop inner _ =>
    intro start _ items stop hyields item hitem
    obtain ⟨rfl, -⟩ := yields_drop_iff.mp hyields
    exact absurd hitem List.not_mem_nil
  | seq parts ih =>
    exact keeps_seq (composable_items _ _) fun part hpart =>
      (ih part hpart).itemsComeFrom_of_part hpart
  | alt alternatives ih =>
    exact keeps_alt fun part hpart => (ih part hpart).itemsComeFrom_of_part hpart
  | first alternatives ih =>
    exact keeps_first fun part hpart => (ih part hpart).itemsComeFrom_of_part hpart
  | repetition inner min max ih =>
    exact keeps_repetition min max (composable_items _ _)
      (ih.itemsComeFrom_of_part List.mem_cons_self)
  | missing label =>
    intro start hs items stop hyields
    obtain ⟨rfl, -⟩ := (yields_missing_iff hs).mp hyields
    exact List.forall_mem_singleton.mpr (.refl _)
  | tag name inner ih =>
    intro start hs items stop hyields
    obtain ⟨found, hfound, ⟨-, rfl⟩ | ⟨-, rfl⟩⟩ := yields_tag_iff.mp hyields
    · exact List.forall_mem_singleton.mpr ⟨inner, .refl _⟩
    · exact ih.itemsComeFrom_of_part List.mem_cons_self start hs items stop hfound

/-- The tokens of the items are some of those between start and stop, in their order. -/
def WithinStretch (tokens : List Token) : Passage := fun start items stop =>
  (items.flatMap Item.tokens).Sublist (stretch tokens start stop)

/-- Passages with tokens of their own stretch may be put one after another. -/
theorem composable_withinStretch (tokens : List Token) :
    Composable tokens.length (WithinStretch tokens) where
  stay _ _ := List.nil_sublist _
  join hstart hstop _ hfirst hothers := by
    rw [WithinStretch, List.flatMap_append, ← stretch_append tokens hstart hstop]
    exact hfirst.append hothers

/-- Every derivation of every grammar has tokens of its own stretch. -/
theorem keeps_withinStretch (tokens : List Token) (grammar : Grammar) :
    Keeps tokens (WithinStretch tokens) grammar := by
  apply keeps_of_everywhere (composable_withinStretch tokens)
    (h := everywhere_of_forall (fun _ => trivial) grammar)
  case htoken =>
    intro kinds start _ items stop hyields
    obtain ⟨t, htoken, -, rfl, rfl⟩ := yields_token_iff.mp hyields
    rw [WithinStretch, stretch_succ htoken]
    exact List.Sublist.refl [t]
  case hdrop =>
    intro inner _ _ start _ items stop hyields
    obtain ⟨rfl, -⟩ := yields_drop_iff.mp hyields
    exact List.nil_sublist _
  case hmissing =>
    intro label start hs items stop hyields
    obtain ⟨rfl, -⟩ := (yields_missing_iff hs).mp hyields
    exact List.nil_sublist _
  case htag =>
    intro name inner _ hinner start hs items stop hyields
    obtain ⟨found, hfound, ⟨-, rfl⟩ | ⟨-, rfl⟩⟩ := yields_tag_iff.mp hyields
    · have hwithin := hinner start hs found stop hfound
      simpa [WithinStretch, Item.tokens] using hwithin
    · exact hinner start hs items stop hfound

/-- Nothing is dropped here, and nothing may be missing. -/
def Lossless : Grammar → Prop
  | drop _ | missing _ => False
  | _ => True

instance : DecidablePred Lossless
  | drop _ | missing _ => isFalse id
  | token _ | seq _ | alt _ | first _ | repetition _ _ _ | tag _ _ => isTrue trivial

/-- Items without a mark have all tokens between start and stop. -/
def WholeStretch (tokens : List Token) : Passage := fun start items stop =>
  (∀ item ∈ items, item.isDiagnostic = false) →
    items.flatMap Item.tokens = stretch tokens start stop

/-- Passages with all tokens of their stretches may be put one after another. -/
theorem composable_wholeStretch (tokens : List Token) :
    Composable tokens.length (WholeStretch tokens) where
  stay start _ _ := by simp [stretch]
  join hstart hstop _ hfirst hothers hclean := by
    obtain ⟨hleft, hright⟩ := List.forall_mem_append.mp hclean
    rw [List.flatMap_append, hfirst hleft, hothers hright, stretch_append tokens hstart hstop]

/-- Without drops, derivations have all tokens of their stretches, as long as no mark stands for
some of them. -/
theorem keeps_wholeStretch (tokens : List Token) {grammar : Grammar}
    (h : grammar.Everywhere Lossless) : Keeps tokens (WholeStretch tokens) grammar := by
  apply keeps_of_everywhere (composable_wholeStretch tokens) (h := h)
  case htoken =>
    intro kinds start _ items stop hyields _
    obtain ⟨t, htoken, -, rfl, rfl⟩ := yields_token_iff.mp hyields
    exact (stretch_succ htoken).symm
  case hdrop => exact fun inner hdropped => hdropped.elim
  case hmissing =>
    intro label start hs items stop hyields hclean
    obtain ⟨rfl, -⟩ := (yields_missing_iff hs).mp hyields
    exact absurd (hclean _ List.mem_cons_self) (by simp [Item.isDiagnostic])
  case htag =>
    intro name inner _ hinner start hs items stop hyields hclean
    obtain ⟨found, hfound, ⟨hnone, rfl⟩ | ⟨-, rfl⟩⟩ := yields_tag_iff.mp hyields
    · have hwhole := hinner start hs found stop hfound hnone
      simpa [Item.tokens] using hwhole
    · exact hinner start hs items stop hfound hclean

/-- A grammar in which nothing may be missing derives no mark. -/
theorem isDiagnostic_eq_false_of_comesFrom {grammar : Grammar} {item : Item}
    (hlossless : grammar.Everywhere Lossless) (h : item.ComesFrom grammar) :
    item.isDiagnostic = false := by
  cases item with
  | token t => rfl
  | field name tokens => rfl
  | diagnostic label => exact (hlossless.of_exposes h).elim

/-- A derivation from a position of a message stops at a position of the message that is not before
its start. The tokens of its items are some of those from the start up to the stop, in the same
order, and all of them if the grammar drops nothing and nothing in it may be missing. Its tokens,
fields and marks come from the grammar, from nodes outside of everything that is dropped. -/
theorem origin_of_mem_derivationsFrom {grammar : Grammar} {start : Nat} {derivation : Derivation}
    (hs : start ≤ tokens.length) (h : derivation ∈ (grammar.derivationsFrom tokens start).toList) :
    (start ≤ derivation.stop ∧ derivation.stop ≤ tokens.length) ∧
      (derivation.items.flatMap Item.tokens).Sublist (stretch tokens start derivation.stop) ∧
      (grammar.Everywhere Lossless →
        derivation.items.flatMap Item.tokens = stretch tokens start derivation.stop) ∧
      ∀ item ∈ derivation.items, item.ComesFrom grammar := by
  have hyields : grammar.Yields tokens start derivation.items derivation.stop := h
  have horigin := keeps_itemsComeFrom tokens grammar start hs _ _ hyields
  refine ⟨hyields.bounds hs, keeps_withinStretch tokens grammar start hs _ _ hyields, ?_, horigin⟩
  intro hlossless
  -- a mark takes no token; where nothing may be missing there is none
  apply keeps_wholeStretch tokens hlossless start hs _ _ hyields
  intro item hitem
  exact isDiagnostic_eq_false_of_comesFrom hlossless (horigin item hitem)

/-- Name and age behind a delimiter have the three tokens there, and the field of the age comes from
the tag of that name. -/
theorem origin_of_name_and_age :
    1 ≤ [Token.delimiter ';', .word "Ann", .word "Lee", .integer 34].length ∧
      (⟨[.field "name" [.word "Ann", .word "Lee"], .field "age" [.integer 34]], 4⟩ : Derivation) ∈
        ((word.many.tagged "name" &&& number.tagged "age").derivationsFrom
          [.delimiter ';', .word "Ann", .word "Lee", .integer 34] 1).toList ∧
      (word.many.tagged "name" &&& number.tagged "age").Everywhere Lossless ∧
      [.word "Ann", .word "Lee", .integer 34] =
        stretch [.delimiter ';', .word "Ann", .word "Lee", .integer 34] 1 4 ∧
      ∃ inner, (word.many.tagged "name" &&& number.tagged "age").Exposes (tag "age" inner) := by
  have hs : 1 ≤ [Token.delimiter ';', .word "Ann", .word "Lee", .integer 34].length := by decide
  have hlist : ((word.many.tagged "name" &&& number.tagged "age").derivationsFrom
      [.delimiter ';', .word "Ann", .word "Lee", .integer 34] 1).toList =
        [⟨[.field "name" [.word "Ann", .word "Lee"], .field "age" [.integer 34]], 4⟩] := by cbv
  have hmem := List.mem_singleton_self
    (⟨[.field "name" [.word "Ann", .word "Lee"], .field "age" [.integer 34]], 4⟩ : Derivation)
  rw [← hlist] at hmem
  have hlossless : (word.many.tagged "name" &&& number.tagged "age").Everywhere Lossless := by
    decide
  obtain ⟨-, -, hwhole, horigin⟩ := origin_of_mem_derivationsFrom hs hmem
  have hage := horigin (.field "age" [.integer 34]) (by simp)
  exact ⟨hs, hmem, hlossless, hwhole hlossless, hage⟩

end Grammar

end MessageGrammar
