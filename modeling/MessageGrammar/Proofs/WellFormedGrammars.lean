import MessageGrammar.Proofs.Subgrammars
import MessageGrammar.Proofs.WrittenGrammars

/-!
# Well-formed grammars

The grammars that some text denotes are the well-formed ones: no chain is shorter than two, the
delimiter class is always dropped, and the counts of every repetition can be given by bounds. That
no other grammar comes from a text follows the rules of the notation. Conversely a spelling is given
for every well-formed grammar; it differs from the printed form where that cannot be read back.
-/

namespace MessageGrammar

namespace Grammar

/-- A chain has at least two elements. -/
def Chained : Grammar → Prop
  | seq parts | alt parts | first parts => 2 ≤ parts.length
  | _ => True

/-- The delimiter class stands directly inside a grammar only if it is dropped. -/
def DropsDelimiter : Grammar → Prop
  | drop _ => True
  | grammar => token .delimiter ∉ grammar.parts

/-- The counts of a repetition can be given by bounds. -/
def Ranged : Grammar → Prop
  | repetition _ min max => HasRange min max
  | _ => True

/-- A greatest count is not below the least one. -/
def Satisfiable : Grammar → Prop
  | repetition _ min (some max) => min ≤ max
  | _ => True

/-- One more than a greatest count is a word, or the count is the least one, too, and is printed
alone. -/
def Incremented : Grammar → Prop
  | repetition _ min (some max) => max.toNat < UInt64.size - 1 ∨ max = min
  | _ => True

/-- Bounds can give the counts of a repetition exactly if both of this holds. -/
theorem ranged_iff {grammar : Grammar} :
    grammar.Ranged ↔ grammar.Satisfiable ∧ grammar.Incremented := by
  match grammar with
  | repetition _ min (some max) =>
    constructor
    · rintro (hsame | ⟨hless, hsize⟩)
      · exact ⟨UInt64.le_of_eq hsame, .inr hsame.symm⟩
      · exact ⟨UInt64.le_of_lt hless, .inl hsize⟩
    · rintro ⟨hle, hsize⟩
      rcases UInt64.lt_or_eq_of_le hle with hless | hsame
      · exact hsize.elim (fun hsize => .inr ⟨hless, hsize⟩) fun hsame => .inl hsame.symm
      · exact .inl hsame
  | repetition _ _ none | token _ | drop _ | seq _ | alt _ | first _ | missing _ | tag _ _ =>
    exact ⟨fun _ => ⟨trivial, trivial⟩, fun _ => trivial⟩

/-- A grammar that has a notation. -/
structure WellFormed (grammar : Grammar) : Prop where
  /-- The grammar is not the delimiter class itself. -/
  root : grammar ≠ token .delimiter
  /-- The delimiter class is dropped wherever it stands. -/
  drops : grammar.Everywhere DropsDelimiter
  /-- Every chain has at least two elements. -/
  chained : grammar.Everywhere Chained
  /-- Bounds can give the counts of every repetition. -/
  ranged : grammar.Everywhere Ranged

instance : DecidablePred Chained
  | seq parts | alt parts | first parts => inferInstanceAs (Decidable (2 ≤ parts.length))
  | token _ | drop _ | repetition _ _ _ | missing _ | tag _ _ => isTrue trivial

instance : DecidablePred DropsDelimiter
  | drop _ => isTrue trivial
  | token _ | seq _ | alt _ | first _ | repetition _ _ _ | missing _ | tag _ _ =>
    inferInstanceAs (Decidable (_ ∉ _))

instance : DecidablePred Satisfiable
  | repetition _ min (some max) => inferInstanceAs (Decidable (min ≤ max))
  | repetition _ _ none | token _ | drop _ | seq _ | alt _ | first _ | missing _ | tag _ _ =>
    isTrue trivial

instance : DecidablePred Incremented
  | repetition _ min (some max) =>
    inferInstanceAs (Decidable (max.toNat < UInt64.size - 1 ∨ max = min))
  | repetition _ _ none | token _ | drop _ | seq _ | alt _ | first _ | missing _ | tag _ _ =>
    isTrue trivial

instance : DecidablePred Ranged := fun _ => decidable_of_iff' _ ranged_iff

/-- The four conditions on a well-formed grammar. -/
theorem wellFormed_iff {grammar : Grammar} :
    grammar.WellFormed ↔ grammar ≠ token .delimiter ∧ grammar.Everywhere DropsDelimiter ∧
      grammar.Everywhere Chained ∧ grammar.Everywhere Ranged :=
  ⟨fun h => ⟨h.root, h.drops, h.chained, h.ranged⟩, fun h => ⟨h.1, h.2.1, h.2.2.1, h.2.2.2⟩⟩

instance : DecidablePred WellFormed := fun _ => decidable_of_iff' _ wellFormed_iff

/-- The parts of a well-formed grammar that is no drop are well-formed. -/
theorem WellFormed.part {grammar part : Grammar} (h : grammar.WellFormed)
    (hpart : part ∈ grammar.parts) (hdrop : ∀ inner, grammar ≠ drop inner) : part.WellFormed where
  root := by
    rintro rfl
    have hdrops := h.drops.here
    cases grammar with
    | drop inner => exact hdrop inner rfl
    | _ => exact hdrops hpart
  drops := h.drops.inside hpart
  chained := h.chained.inside hpart
  ranged := h.ranged.inside hpart

/-- A grammar with well-formed parts is well-formed if nothing is wrong with itself. -/
theorem WellFormed.of_parts {grammar : Grammar} (hroot : grammar ≠ token .delimiter)
    (hchained : grammar.Chained) (hranged : grammar.Ranged)
    (hparts : ∀ part ∈ grammar.parts, part.WellFormed) : grammar.WellFormed where
  root := hroot
  drops := by
    refine .intro ?_ fun part hpart => (hparts part hpart).drops
    cases grammar with
    | drop inner => trivial
    | _ => exact fun hpart => (hparts _ hpart).root rfl
  chained := .intro hchained fun part hpart => (hparts part hpart).chained
  ranged := .intro hranged fun part hpart => (hparts part hpart).ranged

/-- What may be dropped: a well-formed grammar or the delimiter class. -/
theorem wellFormed_drop_iff {inner : Grammar} :
    (drop inner).WellFormed ↔ inner = token .delimiter ∨ inner.WellFormed := by
  constructor
  · intro h
    have hmem : inner ∈ (drop inner).parts := List.mem_singleton_self inner
    by_cases hroot : inner = token .delimiter
    · exact .inl hroot
    · exact .inr ⟨hroot, h.drops.inside hmem, h.chained.inside hmem, h.ranged.inside hmem⟩
  · rintro (rfl | h)
    · have hparts : ∀ part ∈ (drop (token .delimiter)).parts, part = token .delimiter :=
        fun _ hpart => List.mem_singleton.mp hpart
      have hleaf : ∀ {holds : Grammar → Prop}, holds (drop (token .delimiter)) →
          holds (token .delimiter) → Everywhere holds (drop (token .delimiter)) :=
        fun hdrop hclass => .intro hdrop fun part hpart => by
          rw [hparts part hpart]
          exact .intro hclass fun _ hpart => absurd hpart List.not_mem_nil
      exact ⟨nofun, hleaf trivial List.not_mem_nil, hleaf trivial trivial, hleaf trivial trivial⟩
    · refine .of_parts nofun trivial trivial fun part hpart => ?_
      rw [List.mem_singleton.mp hpart]
      exact h

end Grammar

namespace Notation

section Except

variable {ε α β : Type} {result : Except ε α} {b : β}

/-- A changed value comes from a value. -/
theorem map_eq_ok_iff {f : α → β} : result.map f = .ok b ↔ ∃ a, result = .ok a ∧ f a = b := by
  cases result <;> simp [Except.map]

/-- What depends on a value comes from a value. -/
theorem bind_eq_ok_iff {f : α → Except ε β} :
    result.bind f = .ok b ↔ ∃ a, result = .ok a ∧ f a = .ok b := by
  cases result <;> simp [Except.bind]

end Except

/-- Names denote well-formed grammars. -/
theorem wellFormed_of_matcher? {name : String} {grammar : Grammar}
    (h : matcher? name = some grammar) : grammar.WellFormed := by
  obtain ⟨kinds, -, hkinds⟩ := Option.map_eq_some_iff.mp h
  have hleaf : ∀ kinds, kinds ≠ .delimiter → (Grammar.token kinds).WellFormed := fun kinds hkinds =>
    .of_parts (fun heq => hkinds (Grammar.token.inj heq)) trivial trivial
      fun _ hpart => absurd hpart List.not_mem_nil
  cases kinds <;> cases hkinds
  case delimiter => exact Grammar.wellFormed_drop_iff.mpr (.inl rfl)
  all_goals exact hleaf _ (by decide)

/-- An excluded count above the least one leaves a greatest count that bounds can give. -/
theorem hasRange_of_excluded {low high : UInt64} (h : ¬ high ≤ low) :
    Grammar.HasRange low (Grammar.Limit.greatest (.excluded high)) := by
  have hless : low.toNat < high.toNat := UInt64.lt_iff_toNat_lt.mp (UInt64.not_le.mp h)
  have hsize := high.toNat_lt
  have hpos : high ≠ 0 := by
    rintro rfl
    exact absurd hless (Nat.not_lt_zero _)
  have hmax : (high - 1).toNat = high.toNat - 1 := by
    rw [UInt64.toNat_sub_of_le _ _ (UInt64.le_iff_toNat_le.mpr ?_), UInt64.toNat_one]
    rw [UInt64.toNat_one]
    omega
  rw [Grammar.Limit.greatest, if_neg hpos, Grammar.HasRange, UInt64.lt_iff_toNat_lt,
    ← UInt64.toNat_inj, hmax, UInt64.size]
  omega

/-- Bounds give counts that bounds can give. -/
theorem Bounds.wellFormed_of_apply {bounds : Bounds} {inner grammar : Grammar}
    (hinner : inner.WellFormed) (h : bounds.apply inner = .ok grammar) : grammar.WellFormed := by
  have hrepetition : ∀ {min max}, Grammar.HasRange min max →
      (Grammar.repetition inner min max).WellFormed := fun hrange =>
    .of_parts nofun trivial hrange fun part hpart => by
      rw [List.mem_singleton.mp hpart]
      exact hinner
  unfold Bounds.apply at h
  split at h
  · cases h
  · cases h
    exact hrepetition (.inl rfl)
  · cases h
    exact hrepetition trivial
  next high _ _ =>
    split at h
    · cases h
    next hless =>
      cases h
      exact hrepetition (hasRange_of_excluded hless)

/-- A chain of two or more well-formed grammars is well-formed. -/
theorem Operator.wellFormed_grammar (operator : Operator) {grammars : List Grammar}
    (hlength : 2 ≤ grammars.length) (h : ∀ grammar ∈ grammars, grammar.WellFormed) :
    (operator.grammar grammars).WellFormed := by
  cases operator <;> exact .of_parts nofun hlength trivial h

mutual

/-- Every expression that stands in a text denotes well-formed grammars only. -/
theorem Derives.wellFormed {layer : Layer} {tree : Expression} {start stop : Cursor} :
    Derives layer tree start stop → ∀ {grammar}, tree.resolve = .ok grammar → grammar.WellFormed
  | .name _ _, grammar, h => by
    rw [Expression.resolve] at h
    split at h
    next hname =>
      cases h
      exact wellFormed_of_matcher? hname
    next => cases h
  | .missing _ _ _ _, grammar, h => by
    rw [Expression.resolve] at h
    cases h
    exact .of_parts nofun trivial trivial fun _ hpart => absurd hpart List.not_mem_nil
  | .optional _ _ argument _, grammar, h => by
    rw [Expression.resolve, map_eq_ok_iff] at h
    obtain ⟨inner, hinner, rfl⟩ := h
    refine .of_parts nofun trivial (.inr (by decide)) fun part hpart => ?_
    rw [List.mem_singleton.mp hpart]
    exact argument.wellFormed hinner
  | .drop _ _ argument _, grammar, h => by
    rw [Expression.resolve, map_eq_ok_iff] at h
    obtain ⟨inner, hinner, rfl⟩ := h
    exact Grammar.wellFormed_drop_iff.mpr (.inr (argument.wellFormed hinner))
  | .tag _ _ _ _ argument _, grammar, h => by
    rw [Expression.resolve, map_eq_ok_iff] at h
    obtain ⟨inner, hinner, rfl⟩ := h
    refine .of_parts nofun trivial trivial fun part hpart => ?_
    rw [List.mem_singleton.mp hpart]
    exact argument.wellFormed hinner
  | .group _ content _, grammar, h => content.wellFormed h
  | .atom _ content _, grammar, h => content.wellFormed h
  | .plain content, grammar, h => content.wellFormed h
  | .bounded content _, grammar, h => by
    rw [Expression.resolve, bind_eq_ok_iff] at h
    obtain ⟨inner, hinner, happly⟩ := h
    exact Bounds.wellFormed_of_apply (content.wellFormed hinner) happly
  | @Derives.chain operator _ tail _ _ _ first others, grammar, h => by
    -- One element is itself, and the chains that are built have two or more.
    rw [Operator.join] at h
    split at h
    · exact first.wellFormed h
    next htail =>
      rw [Expression.resolve_build, map_eq_ok_iff] at h
      obtain ⟨grammars, hgrammars, rfl⟩ := h
      rw [Expression.resolveAll, bind_eq_ok_iff] at hgrammars
      obtain ⟨head, hhead, hgrammars⟩ := hgrammars
      obtain ⟨more, hmore, rfl⟩ := map_eq_ok_iff.mp hgrammars
      obtain ⟨hlength, hparts⟩ := others.wellFormed hmore
      have hpos : 0 < tail.length :=
        List.length_pos_iff.mpr fun hnil => htail (List.isEmpty_iff.mpr hnil)
      refine operator.wellFormed_grammar ?_ ?_
      · rw [List.length_cons, hlength]
        omega
      · exact List.forall_mem_cons.mpr ⟨first.wellFormed hhead, hparts⟩

/-- Every chain that stands in a text denotes as many grammars as it has elements, well-formed
ones. -/
theorem DerivesTail.wellFormed {operator : Operator} {tail : List Expression}
    {start stop : Cursor} :
    DerivesTail operator tail start stop →
      ∀ {grammars}, Expression.resolveAll tail = .ok grammars →
        grammars.length = tail.length ∧ ∀ grammar ∈ grammars, grammar.WellFormed
  | .nil _, grammars, h => by
    cases h
    exact ⟨rfl, fun _ hgrammar => absurd hgrammar List.not_mem_nil⟩
  | .cons _ next others, grammars, h => by
    rw [Expression.resolveAll, bind_eq_ok_iff] at h
    obtain ⟨head, hhead, h⟩ := h
    obtain ⟨more, hmore, rfl⟩ := map_eq_ok_iff.mp h
    obtain ⟨hlength, hparts⟩ := others.wellFormed hmore
    refine ⟨?_, List.forall_mem_cons.mpr ⟨next.wellFormed hhead, hparts⟩⟩
    rw [List.length_cons, List.length_cons, hlength]

end

end Notation

namespace Grammar

open Notation

/-- Texts denote well-formed grammars only. -/
theorem wellFormed_of_compile {source : String} {grammar : Grammar}
    (h : compile source = .ok grammar) : grammar.WellFormed := by
  obtain ⟨tree, htree, hresolved⟩ := bind_eq_ok_iff.mp h
  exact (Expression.denotes_of_ofText htree).wellFormed hresolved

/-- A character between quotes, behind a backslash where it has to be. -/
def spellChar (c : Char) : List Char :=
  if c = '"' ∨ c = '\\' then ['\\', c] else [c]

/-- A text in quotes. -/
def spellText (text : String) : List Char :=
  '"' :: text.toList.flatMap spellChar ++ ['"']

/-- What is spelled between quotes means the text. -/
theorem quoted_flatMap_spellChar (text : List Char) : Quoted (text.flatMap spellChar) text := by
  induction text with
  | nil => exact .nil
  | cons c others ih =>
    rw [List.flatMap_cons, spellChar]
    split
    next hspecial => exact .escaped hspecial ih
    next hplain =>
      rw [not_or] at hplain
      exact .plain hplain.1 hplain.2 ih

mutual

/-- A spelling of a grammar, character by character. What is repeated stands in parentheses, and
only quotes and backslashes stand behind a backslash. -/
def spelling : Grammar → List Char
  | token kinds => kinds.name.toList
  | drop inner =>
    if inner = token .delimiter then TokenClass.delimiter.name.toList
    else "Drop(".toList ++ spelling inner ++ [')']
  | seq parts => printChain '&' (spellings parts)
  | alt alternatives => printChain '|' (spellings alternatives)
  | first alternatives => printChain '%' (spellings alternatives)
  | repetition inner min max => '(' :: spelling inner ++ [')'] ++ printBounds min max
  | missing label => "missing(".toList ++ spellText label ++ [')']
  | tag name inner => "Tag(".toList ++ spellText name ++ ',' :: ' ' :: spelling inner ++ [')']

/-- A spelling of each grammar of a list. -/
def spellings : List Grammar → List (List Char)
  | [] => []
  | grammar :: grammars => spelling grammar :: spellings grammars

end

/-- Each grammar of a list is spelled by itself. -/
theorem spellings_eq_map (grammars : List Grammar) :
    spellings grammars = grammars.map spelling := by
  induction grammars with
  | nil => rfl
  | cons grammar grammars ih => rw [spellings, ih, List.map_cons]

/-- The name of a class is looked up. -/
theorem matcher?_name {kinds : TokenClass} (h : kinds ≠ .delimiter) :
    matcher? kinds.name = some (token kinds) := by
  rw [matcher?, TokenClass.ofName?_name]
  cases kinds
  case delimiter => exact absurd rfl h
  all_goals rfl

/-- The name of the delimiter class stands for a delimiter that is dropped. -/
theorem matcher?_delimiter :
    matcher? TokenClass.delimiter.name = some (drop (token .delimiter)) := by
  rw [matcher?, TokenClass.ofName?_name]
  rfl

/-- The spelling of a well-formed grammar denotes it. -/
theorem writes_spelling {grammar : Grammar} (h : grammar.WellFormed) :
    Writes .item grammar.spelling grammar := by
  have hchain : ∀ (operator : Operator) (elements : List Grammar),
      (∀ part ∈ elements, part.WellFormed → Writes .item part.spelling part) →
        2 ≤ elements.length → (∀ part ∈ elements, part.WellFormed) →
          Writes .item (printChain operator.symbol (spellings elements))
            (operator.grammar elements) := by
    intro operator elements ih hlength hparts
    rw [spellings_eq_map]
    have hbare := writes_chain operator hlength fun part hpart => ih part hpart (hparts part hpart)
    exact hbare.atom.item
  -- The equations of `spelling` hold by definition, so each case only shows its own.
  induction grammar with
  | token kinds =>
    have hkinds : kinds ≠ .delimiter := by
      rintro rfl
      exact h.root rfl
    exact (writes_name (matcher?_name hkinds)).atom.item
  | drop inner ih =>
    by_cases hinner : inner = token .delimiter
    · rw [hinner]
      exact (writes_name matcher?_delimiter).atom.item
    · have hwell := (wellFormed_drop_iff.mp h).resolve_left hinner
      have hspelling : spelling (drop inner) = "Drop(".toList ++ spelling inner ++ [')'] :=
        if_neg hinner
      rw [hspelling]
      exact (ih hwell).expression.drop.atom.item
  | seq elements ih =>
    show Writes .item (printChain '&' (spellings elements)) (seq elements)
    exact hchain .sequence elements ih h.chained.here fun part hpart => h.part hpart nofun
  | alt elements ih =>
    show Writes .item (printChain '|' (spellings elements)) (alt elements)
    exact hchain .alternation elements ih h.chained.here fun part hpart => h.part hpart nofun
  | first elements ih =>
    show Writes .item (printChain '%' (spellings elements)) (first elements)
    exact hchain .priority elements ih h.chained.here fun part hpart => h.part hpart nofun
  | repetition inner min max ih =>
    have hinner : inner.WellFormed := h.part (List.mem_singleton_self inner) nofun
    show Writes .item ('(' :: spelling inner ++ [')'] ++ printBounds min max) _
    exact (ih hinner).expression.group.atom.bounded h.ranged.here
  | missing label =>
    show Writes .item ("missing(".toList ++ spellText label ++ [')']) (missing label)
    exact (writes_missing (quoted_flatMap_spellChar label.toList)).atom.item
  | tag name inner ih =>
    have hinner : inner.WellFormed := h.part (List.mem_singleton_self inner) nofun
    show Writes .item ("Tag(".toList ++ spellText name ++ ',' :: ' ' :: spelling inner ++ [')'])
      (tag name inner)
    exact ((ih hinner).expression.tag (quoted_flatMap_spellChar name.toList)).atom.item

/-- Some text denotes a grammar exactly if the grammar is well-formed; so the greatest count of a
repetition that was read is never below the least one, and one more than it is a word where it has
to be printed. -/
theorem exists_compile_iff_wellFormed (grammar : Grammar) :
    ((∃ source, compile source = .ok grammar) ↔ grammar.WellFormed) ∧
      ∀ source, compile source = .ok grammar →
        grammar.Everywhere fun part => part.Satisfiable ∧ part.Incremented := by
  refine ⟨⟨?_, fun h => ?_⟩, fun source h => ?_⟩
  · rintro ⟨source, h⟩
    exact wellFormed_of_compile h
  · exact ⟨_, (writes_spelling h).expression.compile⟩
  · exact (wellFormed_of_compile h).ranged.imp fun _ => ranged_iff.mp

example : (word.many.times 2).WellFormed ∧ ¬ (seq [word]).WellFormed := by decide

end Grammar

end MessageGrammar
