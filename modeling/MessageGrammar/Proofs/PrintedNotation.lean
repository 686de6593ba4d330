import MessageGrammar.Proofs.Scanning
import MessageGrammar.Proofs.WellFormedGrammars

/-!
# Reading printed grammars

A printed grammar is read back as the same grammar unless its printed form is no notation. Besides
being well-formed it must not repeat a repetition, which is printed as bounds behind bounds, and
must not have a label or a name with an escape that strings of the notation do not know. Everything
else that is printed is read back; and neither of these two survives the scan of the printed text.
-/

namespace MessageGrammar.Grammar

open Notation

/-- Whether a grammar is printed with bounds at its end. -/
def repeats : Grammar → Bool
  | repetition _ min max => ¬ (min = 0 ∧ max = some 1)
  | _ => false

/-- What is printed with bounds does not itself end with bounds before them. -/
def Unstacked : Grammar → Prop
  | grammar@(repetition inner _ _) => grammar.repeats = true → inner.repeats = false
  | _ => True

/-- A character that is printed between quotes as strings of the notation have it: as itself, or a
quote or backslash behind a backslash. -/
def Legible (c : Char) : Prop :=
  Text.escape c = [c] ∨ c = '"' ∨ c = '\\'

/-- The characters of a label or name are printed as strings of the notation have them. -/
def Labelled : Grammar → Prop
  | missing label => ∀ c ∈ label.toList, Legible c
  | tag name _ => ∀ c ∈ name.toList, Legible c
  | _ => True

/-- Nothing in a grammar itself, apart from its parts, keeps its printed form from being
notation. -/
def Plain (grammar : Grammar) : Prop :=
  grammar.Unstacked ∧ grammar.Labelled

/-- A grammar whose printed form can be read back. -/
structure Readable (grammar : Grammar) : Prop where
  /-- Every chain has at least two elements. -/
  chained : grammar.Everywhere Chained
  /-- The grammar is not the delimiter class itself. -/
  root : grammar ≠ token .delimiter
  /-- The delimiter class is dropped wherever it stands. -/
  drops : grammar.Everywhere DropsDelimiter
  /-- No greatest count is below its least one. -/
  satisfiable : grammar.Everywhere Satisfiable
  /-- Bounds are never printed behind bounds. -/
  unstacked : grammar.Everywhere Unstacked
  /-- Strings of the notation can hold all labels and names. -/
  labelled : grammar.Everywhere Labelled

instance : DecidablePred Unstacked
  | repetition inner min max =>
    inferInstanceAs (Decidable ((repetition inner min max).repeats = true → inner.repeats = false))
  | token _ | drop _ | seq _ | alt _ | first _ | missing _ | tag _ _ => isTrue trivial

instance : DecidablePred Legible := fun _ => inferInstanceAs (Decidable (_ ∨ _))

instance : DecidablePred Labelled
  | missing label | tag label _ => List.decidableBAll Legible label.toList
  | token _ | drop _ | seq _ | alt _ | first _ | repetition _ _ _ => isTrue trivial

instance : DecidablePred Plain := fun _ => inferInstanceAs (Decidable (_ ∧ _))

/-- The six conditions on a readable grammar. -/
theorem readable_iff {grammar : Grammar} :
    grammar.Readable ↔ grammar.Everywhere Chained ∧ grammar ≠ token .delimiter ∧
      grammar.Everywhere DropsDelimiter ∧ grammar.Everywhere Satisfiable ∧
        grammar.Everywhere Unstacked ∧ grammar.Everywhere Labelled :=
  ⟨fun h => ⟨h.chained, h.root, h.drops, h.satisfiable, h.unstacked, h.labelled⟩,
    fun h => ⟨h.1, h.2.1, h.2.2.1, h.2.2.2.1, h.2.2.2.2.1, h.2.2.2.2.2⟩⟩

instance : DecidablePred Readable := fun _ => decidable_of_iff' _ readable_iff

section Equations

variable {inner : Grammar} {min : UInt64} {max : Option UInt64}

/-- Each grammar of a list is printed by itself. -/
theorem printAll_eq_map (grammars : List Grammar) : printAll grammars = grammars.map print := by
  induction grammars with
  | nil => rfl
  | cons grammar grammars ih => rw [printAll, ih, List.map_cons]

/-- A dropped grammar is printed as such unless it is the delimiter class. -/
theorem print_drop (h : inner ≠ token .delimiter) :
    print (drop inner) = "Drop(".toList ++ print inner ++ [')'] := by
  cases inner with
  | token kinds => cases kinds <;> first | rfl | exact absurd rfl h
  | _ => rfl

/-- A repetition that repeats is printed with bounds behind it. -/
theorem print_repetition (h : (repetition inner min max).repeats = true) :
    print (repetition inner min max) = print inner ++ printBounds min max :=
  if_neg (of_decide_eq_true h)

/-- Any other repetition is optional. -/
theorem repetition_eq_optional (h : (repetition inner min max).repeats = false) :
    repetition inner min max = inner.optional := by
  obtain ⟨hmin, hmax⟩ := Decidable.not_not.mp (of_decide_eq_false h)
  rw [hmin, hmax]
  rfl

/-- Optional grammars are printed as such. -/
theorem print_optional : print inner.optional = "Optional(".toList ++ print inner ++ [')'] :=
  rfl

end Equations

/-- Characters are printed between quotes as they are spelled if strings can have them so. -/
theorem escape_eq_spellChar {c : Char} (h : Legible c) : Text.escape c = spellChar c := by
  rcases h with hself | rfl | rfl
  · have hplain : ¬ (c = '"' ∨ c = '\\') := by
      rintro (rfl | rfl) <;> exact absurd hself (by decide)
    rw [hself, spellChar, if_neg hplain]
  · decide
  · decide

/-- The printed form of a text means the text if strings can have its characters so. -/
theorem printText_eq_spellText {text : String} (h : ∀ c ∈ text.toList, Legible c) :
    printText text = spellText text := by
  have hescape : text.toList.flatMap Text.escape = text.toList.flatMap spellChar := by
    rw [List.flatMap_def, List.flatMap_def,
      List.map_congr_left fun c hc => escape_eq_spellChar (h c hc)]
  rw [printText, Text.quote, String.toList_ofList, hescape, spellText]

/-- A readable grammar is well-formed if its greatest counts can be printed. -/
theorem Readable.wellFormed {grammar : Grammar} (h : grammar.Readable)
    (hcounts : grammar.Everywhere Incremented) : grammar.WellFormed where
  root := h.root
  drops := h.drops
  chained := h.chained
  ranged := (h.satisfiable.and hcounts).imp fun _ => ranged_iff.mpr

/-- The printed form of a well-formed grammar denotes it if bounds are never printed behind bounds
and strings can hold its labels and names. What is printed without bounds at its end is an atom. -/
theorem writes_print {grammar : Grammar} (h : grammar.WellFormed)
    (hunstacked : grammar.Everywhere Unstacked) (hlabelled : grammar.Everywhere Labelled) :
    (grammar.repeats = false → Writes .bare grammar.print grammar) ∧
      Writes .item grammar.print grammar := by
  -- A grammar that does not repeat is an item because it is an atom.
  have hitem : ∀ {grammar : Grammar}, Writes .bare grammar.print grammar →
      (grammar.repeats = false → Writes .bare grammar.print grammar) ∧
        Writes .item grammar.print grammar :=
    fun hbare => ⟨fun _ => hbare, hbare.atom.item⟩
  have hchain : ∀ (operator : Operator) (elements : List Grammar), 2 ≤ elements.length →
      (∀ part ∈ elements, Writes .item part.print part) →
        Writes .bare (printChain operator.symbol (printAll elements))
          (operator.grammar elements) := by
    intro operator elements hlength hparts
    rw [printAll_eq_map]
    exact writes_chain operator hlength hparts
  induction grammar with
  | token kinds =>
    have hkinds : kinds ≠ .delimiter := by
      rintro rfl
      exact h.root rfl
    exact hitem (writes_name (matcher?_name hkinds))
  | drop inner ih =>
    refine hitem ?_
    by_cases hinner : inner = token .delimiter
    · rw [hinner]
      exact writes_name matcher?_delimiter
    · have hmem : inner ∈ (drop inner).parts := List.mem_singleton_self inner
      have hwell := (wellFormed_drop_iff.mp h).resolve_left hinner
      rw [print_drop hinner]
      exact (ih hwell (hunstacked.inside hmem) (hlabelled.inside hmem)).2.expression.drop
  | seq elements ih =>
    exact hitem (hchain .sequence elements h.chained.here fun part hpart =>
      (ih part hpart (h.part hpart nofun) (hunstacked.inside hpart) (hlabelled.inside hpart)).2)
  | alt elements ih =>
    exact hitem (hchain .alternation elements h.chained.here fun part hpart =>
      (ih part hpart (h.part hpart nofun) (hunstacked.inside hpart) (hlabelled.inside hpart)).2)
  | first elements ih =>
    exact hitem (hchain .priority elements h.chained.here fun part hpart =>
      (ih part hpart (h.part hpart nofun) (hunstacked.inside hpart) (hlabelled.inside hpart)).2)
  | repetition inner min max ih =>
    have hmem : inner ∈ (repetition inner min max).parts := List.mem_singleton_self inner
    obtain ⟨hbare, hinner⟩ :=
      ih (h.part hmem nofun) (hunstacked.inside hmem) (hlabelled.inside hmem)
    cases hrepeats : (repetition inner min max).repeats with
    | true =>
      refine ⟨nofun, ?_⟩
      rw [print_repetition hrepeats]
      exact (hbare (hunstacked.here hrepeats)).atom.bounded h.ranged.here
    | false =>
      have hoptional := hinner.expression.optional
      rw [repetition_eq_optional hrepeats, print_optional]
      exact ⟨fun _ => hoptional, hoptional.atom.item⟩
  | missing label =>
    refine hitem ?_
    show Writes .bare ("missing(".toList ++ printText label ++ [')']) (missing label)
    rw [printText_eq_spellText hlabelled.here]
    exact writes_missing (quoted_flatMap_spellChar label.toList)
  | tag name inner ih =>
    have hmem : inner ∈ (tag name inner).parts := List.mem_singleton_self inner
    obtain ⟨-, hinner⟩ := ih (h.part hmem nofun) (hunstacked.inside hmem) (hlabelled.inside hmem)
    refine hitem ?_
    show Writes .bare ("Tag(".toList ++ printText name ++ ',' :: ' ' :: print inner ++ [')'])
      (tag name inner)
    rw [printText_eq_spellText hlabelled.here]
    exact hinner.expression.tag (quoted_flatMap_spellChar name.toList)

/-- Any other character than a quote and a backslash is printed as itself or as an escape that
strings of the notation do not know. -/
theorem escape_eq_self_or {c : Char} (hquote : c ≠ '"') (hbackslash : c ≠ '\\') :
    Text.escape c = [c] ∨
      ∃ d others, Text.escape c = '\\' :: d :: others ∧ d ≠ '"' ∧ d ≠ '\\' := by
  unfold Text.escape
  rw [if_neg hquote, if_neg hbackslash]
  repeat' split
  all_goals first
    | exact .inl rfl
    | exact .inr ⟨_, _, rfl, by decide, by decide⟩

section Scan

open Lexical

variable {closed : Bool} {state : Lexical}

/-- The scan of a character printed between quotes tells that strings can have it so. -/
theorem legible_of_scan_escape {c : Char} (h : quoted.scan (Text.escape c) = some state) :
    state = quoted ∧ Legible c := by
  by_cases hspecial : c = '"' ∨ c = '\\'
  · rcases hspecial with rfl | rfl <;> cases h <;> exact ⟨rfl, .inr (by decide)⟩
  obtain ⟨hquote, hbackslash⟩ := not_or.mp hspecial
  rcases escape_eq_self_or hquote hbackslash with hself | ⟨d, others, heq, hquote', hbackslash'⟩
  · rw [hself, scan_cons, step, if_neg hquote, if_neg hbackslash] at h
    cases h
    exact ⟨rfl, .inl hself⟩
  · rw [heq, scan_cons] at h
    change escaped.scan (d :: others) = some state at h
    rw [scan_cons, step, if_neg (not_or.mpr ⟨hquote', hbackslash'⟩)] at h
    cases h

/-- The scan of what is printed between quotes tells that strings can have all of it so. -/
theorem legible_of_scan_flatMap {chars : List Char}
    (h : quoted.scan (chars.flatMap Text.escape) = some state) :
    state = quoted ∧ ∀ c ∈ chars, Legible c := by
  induction chars generalizing state with
  | nil =>
    cases h
    exact ⟨rfl, fun _ hc => absurd hc List.not_mem_nil⟩
  | cons c chars ih =>
    rw [List.flatMap_cons, scan_append, Option.bind_eq_some_iff] at h
    obtain ⟨between, hc, hchars⟩ := h
    obtain ⟨rfl, hlegible⟩ := legible_of_scan_escape hc
    obtain ⟨hstate, hall⟩ := ih hchars
    exact ⟨hstate, List.forall_mem_cons.mpr ⟨hlegible, hall⟩⟩

/-- The scan of a text printed in quotes tells that strings can have its characters so. -/
theorem legible_of_scan_printText {text : String}
    (h : (outside closed).scan (printText text) = some state) :
    state = outside false ∧ ∀ c ∈ text.toList, Legible c := by
  rw [printText, Text.quote, String.toList_ofList, List.cons_append, scan_cons] at h
  change quoted.scan (text.toList.flatMap Text.escape ++ ['"']) = some state at h
  rw [scan_append, Option.bind_eq_some_iff] at h
  obtain ⟨between, hchars, hclose⟩ := h
  obtain ⟨rfl, hall⟩ := legible_of_scan_flatMap hchars
  cases hclose
  exact ⟨rfl, hall⟩

/-- The scan of bounds starts where no bracket was closed and ends where one is. -/
theorem closed_of_scan_printBounds {min : UInt64} {max : Option UInt64}
    (h : (outside closed).scan (printBounds min max) = some state) :
    closed = false ∧ state = outside true := by
  have hdigits : ∀ n, (outside false).scan (digits n) = some (outside false) := fun n =>
    scan_of_ordinary Nat.toDigits_ne_nil fun c hc =>
      ordinary_of_isDigit (Nat.isDigit_of_mem_toDigits (by decide) (Nat.le_refl 10) hc)
  have hupper : (outside false).scan (printUpper min max) = some (outside false) := by
    unfold printUpper
    split
    · rfl
    split
    · rfl
    next max _ =>
      rw [scan_cons]
      exact hdigits (max.toNat + 1)
  rw [printBounds_eq, List.cons_append, scan_cons] at h
  cases closed with
  | true => cases h
  | false =>
    change (outside false).scan (digits min.toNat ++ printUpper min max ++ [']']) = some state at h
    rw [scan_append, scan_append, hdigits, Option.bind_some, hupper] at h
    cases h
    exact ⟨rfl, rfl⟩

/-- What stands between an opening text and a closing parenthesis is passed over, too. -/
theorem scan_of_scan_enclosed {opening text : List Char}
    (hopening : (outside closed).scan opening = some (outside false))
    (h : (outside closed).scan (opening ++ text ++ [')']) = some state) :
    ∃ between, (outside false).scan text = some between ∧ between.scan [')'] = some state := by
  rw [scan_append, scan_append, hopening, Option.bind_some, Option.bind_eq_some_iff] at h
  exact h

/-- Behind a closing parenthesis no bracket is closed. -/
theorem eq_of_scan_parenthesis (h : (outside closed).scan [')'] = some state) :
    state = outside false := by
  have hordinary : ∀ c ∈ [')'], Ordinary c := List.forall_mem_singleton.mpr (by decide)
  rw [scan_of_ordinary (List.cons_ne_nil _ _) hordinary] at h
  cases h
  rfl

/-- The printed form of a grammar makes the scan stop if bounds are printed behind bounds in it or a
label or name has an escape that strings do not know. -/
def Passable (grammar : Grammar) : Prop :=
  ∀ closed state, (outside closed).scan grammar.print = some state →
    state = outside grammar.repeats ∧ grammar.Everywhere Plain

/-- A grammar in parentheses behind a modifier is passed over only if it would be by itself. -/
theorem Passable.enclosed {inner : Grammar} (h : inner.Passable) {opening : List Char}
    (hopening : (outside closed).scan opening = some (outside false))
    (hscan : (outside closed).scan (opening ++ inner.print ++ [')']) = some state) :
    state = outside false ∧ inner.Everywhere Plain := by
  obtain ⟨between, hinner, hclosed⟩ := scan_of_scan_enclosed hopening hscan
  obtain ⟨rfl, heverywhere⟩ := h _ _ hinner
  exact ⟨eq_of_scan_parenthesis hclosed, heverywhere⟩

/-- Elements of a chain behind the first one are passed over one by one. -/
theorem everywhere_of_scan_elements {operator : Operator} {elements : List Grammar}
    (hpassable : ∀ part ∈ elements, part.Passable)
    (h : (outside closed).scan
      (elements.flatMap fun part => [' ', operator.symbol, ' '] ++ part.print) = some state) :
    (∃ closed', state = outside closed') ∧
      ∀ part ∈ elements, part.Everywhere Plain := by
  induction elements generalizing closed with
  | nil =>
    cases h
    exact ⟨⟨closed, rfl⟩, fun _ hpart => absurd hpart List.not_mem_nil⟩
  | cons part others ih =>
    obtain ⟨hfirst, hothers⟩ := List.forall_mem_cons.mp hpassable
    have hsymbol : (outside closed).scan [' ', operator.symbol, ' '] = some (outside false) := by
      rw [scan_cons, step_of_isBlank (by decide), Option.bind_some, scan_cons,
        step_of_ordinary operator.ordinary_symbol]
      rfl
    rw [List.flatMap_cons, scan_append, scan_append, hsymbol, Option.bind_some,
      Option.bind_eq_some_iff] at h
    obtain ⟨between, hpart, hrest⟩ := h
    obtain ⟨rfl, heverywhere⟩ := hfirst _ _ hpart
    obtain ⟨hstate, hall⟩ := ih hothers hrest
    exact ⟨hstate, List.forall_mem_cons.mpr ⟨heverywhere, hall⟩⟩

/-- A printed chain is passed over only if its elements are. -/
theorem everywhere_of_scan_chain (operator : Operator) {elements : List Grammar}
    (hpassable : ∀ part ∈ elements, part.Passable)
    (h : (outside closed).scan (printChain operator.symbol (printAll elements)) = some state) :
    state = outside false ∧
      ∀ part ∈ elements, part.Everywhere Plain := by
  rw [printAll_eq_map] at h
  change (outside closed).scan
    (['('] ++ [' ', operator.symbol, ' '].intercalate (elements.map print) ++ [')']) = _ at h
  obtain ⟨between, hinside, hclosed⟩ := scan_of_scan_enclosed rfl h
  cases elements with
  | nil =>
    cases hinside
    exact ⟨eq_of_scan_parenthesis hclosed, fun _ hpart => absurd hpart List.not_mem_nil⟩
  | cons head others =>
    obtain ⟨hhead, hothers⟩ := List.forall_mem_cons.mp hpassable
    rw [List.map_cons, Text.intercalate_cons, List.flatMap_map, scan_append,
      Option.bind_eq_some_iff] at hinside
    obtain ⟨behind, hfirst, hrest⟩ := hinside
    obtain ⟨rfl, heverywhere⟩ := hhead _ _ hfirst
    obtain ⟨⟨closed', rfl⟩, hall⟩ := everywhere_of_scan_elements hothers hrest
    exact ⟨eq_of_scan_parenthesis hclosed, List.forall_mem_cons.mpr ⟨heverywhere, hall⟩⟩

/-- No printed form is passed over if bounds stand behind bounds in it or a string has an escape
that strings do not know. -/
theorem passable (grammar : Grammar) : grammar.Passable := by
  intro closed state h
  induction grammar generalizing closed state with
  | token kinds =>
    change (outside closed).scan kinds.name.toList = some state at h
    rw [scan_of_isName (isName_name kinds)] at h
    cases h
    exact ⟨rfl, .intro ⟨trivial, trivial⟩ fun _ hpart => absurd hpart List.not_mem_nil⟩
  | drop inner ih =>
    have hinner : state = outside false ∧ inner.Everywhere Plain := by
      by_cases hinner : inner = token .delimiter
      · subst hinner
        exact ih closed state h
      · rw [print_drop hinner] at h
        exact Passable.enclosed ih rfl h
    refine ⟨hinner.1, .intro ⟨trivial, trivial⟩ fun part hpart => ?_⟩
    rw [List.mem_singleton.mp hpart]
    exact hinner.2
  | seq elements ih =>
    obtain ⟨hstate, heverywhere⟩ := everywhere_of_scan_chain .sequence ih h
    exact ⟨hstate, .intro ⟨trivial, trivial⟩ heverywhere⟩
  | alt elements ih =>
    obtain ⟨hstate, heverywhere⟩ := everywhere_of_scan_chain .alternation ih h
    exact ⟨hstate, .intro ⟨trivial, trivial⟩ heverywhere⟩
  | first elements ih =>
    obtain ⟨hstate, heverywhere⟩ := everywhere_of_scan_chain .priority ih h
    exact ⟨hstate, .intro ⟨trivial, trivial⟩ heverywhere⟩
  | repetition inner min max ih =>
    have hinner : state = outside (repetition inner min max).repeats ∧
        (repetition inner min max).Unstacked ∧ inner.Everywhere Plain := by
      cases hrepeats : (repetition inner min max).repeats with
      | true =>
        -- The bounds are passed over only behind something that does not end with bounds.
        rw [print_repetition hrepeats, scan_append, Option.bind_eq_some_iff] at h
        obtain ⟨between, hbefore, hbounds⟩ := h
        obtain ⟨rfl, heverywhere⟩ := ih _ _ hbefore
        obtain ⟨hclosed, rfl⟩ := closed_of_scan_printBounds hbounds
        exact ⟨rfl, fun _ => hclosed, heverywhere⟩
      | false =>
        rw [repetition_eq_optional hrepeats, print_optional] at h
        obtain ⟨hstate, heverywhere⟩ := Passable.enclosed ih rfl h
        exact ⟨hstate, fun h => absurd h (by simp [hrepeats]), heverywhere⟩
    refine ⟨hinner.1, .intro ⟨hinner.2.1, trivial⟩ fun part hpart => ?_⟩
    rw [List.mem_singleton.mp hpart]
    exact hinner.2.2
  | missing label =>
    obtain ⟨between, htext, hclosed⟩ := scan_of_scan_enclosed rfl h
    obtain ⟨rfl, hlegible⟩ := legible_of_scan_printText htext
    exact ⟨eq_of_scan_parenthesis hclosed,
      .intro ⟨trivial, hlegible⟩ fun _ hpart => absurd hpart List.not_mem_nil⟩
  | tag name inner ih =>
    have htext : print (tag name inner) =
        "Tag(".toList ++ (printText name ++ ([',', ' '] ++ print inner)) ++ [')'] := by
      show "Tag(".toList ++ printText name ++ ',' :: ' ' :: print inner ++ [')'] = _
      simp
    rw [htext] at h
    obtain ⟨between, harguments, hclosed⟩ := scan_of_scan_enclosed rfl h
    rw [scan_append, Option.bind_eq_some_iff] at harguments
    obtain ⟨behind, hname, harguments⟩ := harguments
    obtain ⟨rfl, hlegible⟩ := legible_of_scan_printText hname
    have hcomma : (outside false).scan [',', ' '] = some (outside false) := rfl
    rw [scan_append, hcomma, Option.bind_some] at harguments
    obtain ⟨rfl, heverywhere⟩ := ih _ _ harguments
    refine ⟨eq_of_scan_parenthesis hclosed, .intro ⟨trivial, hlegible⟩ fun part hpart => ?_⟩
    rw [List.mem_singleton.mp hpart]
    exact heverywhere

end Scan

/-- A printed form that denotes anything has no bounds behind bounds, and no string with an escape
that strings do not know. -/
theorem plain_of_compile_text {grammar other : Grammar} (h : compile grammar.text = .ok other) :
    grammar.Everywhere Plain := by
  obtain ⟨tree, htree, -⟩ := bind_eq_ok_iff.mp h
  rw [text, String.toList_ofList] at htree
  obtain ⟨state, hscan⟩ := (Expression.denotes_of_ofText htree).scan
  exact (passable grammar _ _ hscan).2

/-- A well-formed grammar is read back if nothing keeps its printed form from being notation. -/
theorem compile_text_of_plain {grammar : Grammar} (h : grammar.WellFormed)
    (hplain : grammar.Everywhere Plain) : compile grammar.text = .ok grammar := by
  have hwrites := writes_print h (hplain.imp fun _ => And.left) (hplain.imp fun _ => And.right)
  exact hwrites.2.expression.compile

/-- A grammar whose greatest counts can be printed is read back from its printed form exactly if
this form is readable. -/
theorem compile_text_eq_ok_iff_readable {grammar : Grammar}
    (hcounts : grammar.Everywhere Incremented) :
    compile grammar.text = .ok grammar ↔ grammar.Readable := by
  constructor
  · intro h
    have hwell := wellFormed_of_compile h
    have hplain := plain_of_compile_text h
    exact ⟨hwell.chained, hwell.root, hwell.drops,
      hwell.ranged.imp fun _ hranged => (ranged_iff.mp hranged).1,
      hplain.imp fun _ => And.left, hplain.imp fun _ => And.right⟩
  · intro h
    exact compile_text_of_plain (h.wellFormed hcounts) (h.unstacked.and h.labelled)

/-- Words and, perhaps, a delimiter and a labelled number are read back from their printed form. -/
theorem compile_text_optional_number :
    (word.many &&& (delimiter &&& number.orMissing "n").optional).Everywhere Incremented ∧
      compile (word.many &&& (delimiter &&& number.orMissing "n").optional).text =
        .ok (word.many &&& (delimiter &&& number.orMissing "n").optional) :=
  ⟨by decide, (compile_text_eq_ok_iff_readable (by decide)).mpr (by decide +kernel)⟩

/-- A grammar that was read is read back from its printed form exactly if bounds never stand behind
bounds there and strings can hold all its labels and names. -/
theorem compile_text_eq_ok_iff_plain {source : String} {grammar : Grammar}
    (h : compile source = .ok grammar) :
    compile grammar.text = .ok grammar ↔ grammar.Everywhere Plain :=
  ⟨plain_of_compile_text, compile_text_of_plain (wellFormed_of_compile h)⟩

/-- A label with a line break in it can be read, but not from its printed form. -/
theorem compile_text_line_break :
    compile "missing(\"a\nb\")" = .ok (missing "a\nb") ∧
      compile (missing "a\nb").text ≠ .ok (missing "a\nb") := by
  have hread : compile "missing(\"a\nb\")" = .ok (missing "a\nb") :=
    (writes_missing (quoted_flatMap_spellChar "a\nb".toList)).atom.item.expression.compile
  have hplain : ¬ (missing "a\nb").Everywhere Plain := by decide +kernel
  exact ⟨hread, fun hback => hplain ((compile_text_eq_ok_iff_plain hread).mp hback)⟩

/-- A repetition of a repetition can be read, but not from its printed form, which has bounds behind
bounds. -/
theorem compile_text_repetition_twice :
    compile "(Word[1:])[2]" = .ok (word.many.times 2) ∧
      compile (word.many.times 2).text ≠ .ok (word.many.times 2) := by
  have hword : Writes .bare TokenClass.word.name.toList word :=
    writes_name (matcher?_name (by decide))
  have hmany : Writes .item (TokenClass.word.name.toList ++ printBounds 1 none) word.many :=
    hword.atom.bounded trivial
  have htimes : Writes .item (_ ++ printBounds 2 (some 2)) (word.many.times 2) :=
    hmany.expression.group.atom.bounded (.inl rfl)
  refine ⟨htimes.expression.compile, fun hback => ?_⟩
  exact absurd (plain_of_compile_text hback) (by decide)

end MessageGrammar.Grammar
