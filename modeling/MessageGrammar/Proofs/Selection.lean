import MessageGrammar.Outcome

/-!
# Which derivation decides

The outcome for a message depends on the list of its complete derivations alone. A run over the
list keeps the deepest diagnostic so far, so that a derivation replaces it only if it gets further;
the first derivation without a diagnostic ends the run, whatever was found before.
-/

namespace MessageGrammar

/-- No item of the derivation is a diagnostic. -/
def Derivation.Clean (derivation : Derivation) : Prop :=
  ∀ item ∈ derivation.items, item.isDiagnostic = false

/-- A clean derivation has no first diagnostic. -/
theorem Derivation.firstDiagnostic_eq_none_iff {derivation : Derivation} :
    derivation.firstDiagnostic = none ↔ derivation.Clean :=
  List.findIdx?_eq_none_iff

/-- A derivation that is not clean has a first diagnostic. -/
theorem Derivation.exists_firstDiagnostic {derivation : Derivation} (h : ¬derivation.Clean) :
    ∃ position, derivation.firstDiagnostic = some position :=
  Option.ne_none_iff_exists'.mp (mt firstDiagnostic_eq_none_iff.mp h)

/-- The item at the first diagnostic is a diagnostic with a label. -/
theorem Derivation.exists_label {derivation : Derivation} {position : Nat}
    (h : derivation.firstDiagnostic = some position) :
    ∃ label, derivation.items[position]? = some (.diagnostic label) := by
  obtain ⟨hlt, hmark, _⟩ := List.findIdx?_eq_some_iff_getElem.mp h
  cases hitem : derivation.items[position] with
  | diagnostic label => exact ⟨label, by rw [List.getElem?_eq_getElem hlt, hitem]⟩
  | token t => simp [hitem, Item.isDiagnostic] at hmark
  | field name tokens => simp [hitem, Item.isDiagnostic] at hmark

/-- Among items without a diagnostic none is found. -/
theorem Diagnostic.find?_eq_none {items : List Item} (position : Nat)
    (h : ∀ item ∈ items, item.isDiagnostic = false) : find? position items = none := by
  induction items generalizing position with
  | nil => rfl
  | cons item items ih =>
    obtain ⟨hitem, hitems⟩ := List.forall_mem_cons.mp h
    cases item with
    | diagnostic label => simp [Item.isDiagnostic] at hitem
    | token t => exact ih (position + 1) hitems
    | field name tokens => exact ih (position + 1) hitems

/-- The first diagnostic of items one after another is that of the first ones, if they have any. -/
theorem Diagnostic.find?_append (items others : List Item) (position : Nat) :
    find? position (items ++ others) =
      (find? position items).or (find? (position + items.length) others) := by
  induction items generalizing position with
  | nil => rfl
  | cons item items ih =>
    have hnext := ih (position + 1)
    rw [Nat.add_assoc, Nat.add_comm 1] at hnext
    cases item with
    | diagnostic label => rfl
    | token t => exact hnext
    | field name tokens => exact hnext

/-- The search starts at a position of choice. -/
theorem Diagnostic.find?_eq_map (items : List Item) (position : Nat) :
    find? position items = (find? 0 items).map fun d => ⟨d.label, position + d.position⟩ := by
  induction items generalizing position with
  | nil => rfl
  | cons item items ih =>
    have hnext : find? (position + 1) items =
        (find? 1 items).map fun d => ⟨d.label, position + d.position⟩ := by
      rw [ih (position + 1), ih 1, Option.map_map]
      congr 1
      funext d
      simp [Nat.add_assoc]
    cases item with
    | diagnostic label => rfl
    | token t => exact hnext
    | field name tokens => exact hnext

/-- The search finds the label at the first diagnostic. -/
theorem Diagnostic.find?_eq_some {items : List Item} {index : Nat} {label : String}
    (position : Nat) (h : items.findIdx? Item.isDiagnostic = some index)
    (hlabel : items[index]? = some (.diagnostic label)) :
    find? position items = some ⟨label, position + index⟩ := by
  induction items generalizing position index with
  | nil => simp at h
  | cons item items ih =>
    rw [List.findIdx?_cons] at h
    cases hitem : item.isDiagnostic with
    | true =>
      have hindex : index = 0 := by simpa [hitem] using h.symm
      subst hindex
      obtain rfl : item = .diagnostic label := by simpa using hlabel
      rfl
    | false =>
      obtain ⟨later, hlater, rfl⟩ : ∃ later, items.findIdx? Item.isDiagnostic = some later ∧
          later + 1 = index := by simpa [hitem] using h
      have hnext := ih (position + 1) hlater (by simpa using hlabel)
      rw [Nat.add_assoc, Nat.add_comm 1] at hnext
      cases item with
      | diagnostic label => simp [Item.isDiagnostic] at hitem
      | token t => exact hnext
      | field name tokens => exact hnext

/-- A clean derivation stands for no diagnostic. -/
theorem Derivation.diagnostic?_of_clean {derivation : Derivation} (h : derivation.Clean) :
    derivation.diagnostic? = none :=
  Diagnostic.find?_eq_none 0 h

/-- A derivation stands for its first diagnostic. -/
theorem Derivation.diagnostic?_eq_some {derivation : Derivation} {position : Nat} {label : String}
    (h : derivation.firstDiagnostic = some position)
    (hlabel : derivation.items[position]? = some (.diagnostic label)) :
    derivation.diagnostic? = some ⟨label, position⟩ := by
  rw [diagnostic?, Diagnostic.find?_eq_some 0 h hlabel, Nat.zero_add]

/-- The first derivation of a list that has no diagnostic. -/
def FirstClean (derivations : List Derivation) (chosen : Derivation) : Prop :=
  ∃ before after, derivations = before ++ chosen :: after ∧ chosen.Clean ∧
    ∀ derivation ∈ before, ¬derivation.Clean

/-- Every derivation of a list has a diagnostic, the first one nowhere behind `position`, and the
chosen derivation is the earliest that has it there. -/
def FirstDeepest (derivations : List Derivation) (chosen : Derivation) (position : Nat) : Prop :=
  ∃ before after, derivations = before ++ chosen :: after ∧
    chosen.firstDiagnostic = some position ∧
    (∀ derivation ∈ before, ∃ index < position, derivation.firstDiagnostic = some index) ∧
    ∀ derivation ∈ after, ∃ index ≤ position, derivation.firstDiagnostic = some index

/-- A derivation with a first diagnostic is not clean. -/
theorem Derivation.not_clean_of_firstDiagnostic {derivation : Derivation} {position : Nat}
    (h : derivation.firstDiagnostic = some position) : ¬derivation.Clean := by
  intro hclean
  rw [firstDiagnostic_eq_none_iff.mpr hclean] at h
  simp at h

/-- The first diagnostic is where the one that the derivation stands for is. -/
theorem Derivation.firstDiagnostic_eq_map (derivation : Derivation) :
    derivation.firstDiagnostic = derivation.diagnostic?.map Diagnostic.position := by
  by_cases hclean : derivation.Clean
  · rw [firstDiagnostic_eq_none_iff.mpr hclean, diagnostic?_of_clean hclean]
    rfl
  · obtain ⟨position, hposition⟩ := exists_firstDiagnostic hclean
    obtain ⟨label, hlabel⟩ := exists_label hposition
    rw [diagnostic?_eq_some hposition hlabel, hposition]
    rfl

/-- A list with a first clean derivation has a clean one. -/
theorem FirstClean.exists_clean {derivations : List Derivation} {chosen : Derivation}
    (h : FirstClean derivations chosen) : ∃ derivation ∈ derivations, derivation.Clean := by
  obtain ⟨before, after, rfl, hclean, -⟩ := h
  exact ⟨chosen, by simp, hclean⟩

/-- The chosen derivation is one of the list. -/
theorem FirstDeepest.mem {derivations : List Derivation} {chosen : Derivation} {position : Nat}
    (h : FirstDeepest derivations chosen position) : chosen ∈ derivations := by
  obtain ⟨before, after, rfl, -⟩ := h
  simp

/-- The chosen derivation has its first diagnostic at the deepest position. -/
theorem FirstDeepest.firstDiagnostic {derivations : List Derivation} {chosen : Derivation}
    {position : Nat} (h : FirstDeepest derivations chosen position) :
    chosen.firstDiagnostic = some position := by
  obtain ⟨_, _, -, hchosen, -⟩ := h
  exact hchosen

/-- There is a label at the deepest position. -/
theorem FirstDeepest.exists_label {derivations : List Derivation} {chosen : Derivation}
    {position : Nat} (h : FirstDeepest derivations chosen position) :
    ∃ label, chosen.items[position]? = some (.diagnostic label) := by
  obtain ⟨_, _, -, hchosen, -⟩ := h
  exact Derivation.exists_label hchosen

/-- A list with an earliest deepest derivation is not empty, and none in it is clean. -/
theorem FirstDeepest.marked {derivations : List Derivation} {chosen : Derivation} {position : Nat}
    (h : FirstDeepest derivations chosen position) :
    derivations ≠ [] ∧ ∀ derivation ∈ derivations, ¬derivation.Clean := by
  obtain ⟨before, after, rfl, hchosen, hbefore, hafter⟩ := h
  refine ⟨by simp, ?_⟩
  intro derivation hd
  rw [List.mem_append, List.mem_cons] at hd
  rcases hd with hd | rfl | hd
  · obtain ⟨index, -, hindex⟩ := hbefore derivation hd
    exact Derivation.not_clean_of_firstDiagnostic hindex
  · exact Derivation.not_clean_of_firstDiagnostic hchosen
  · obtain ⟨index, -, hindex⟩ := hafter derivation hd
    exact Derivation.not_clean_of_firstDiagnostic hindex

/-- No first diagnostic is behind the deepest one. -/
theorem FirstDeepest.position_le {derivations : List Derivation} {chosen : Derivation}
    {position : Nat} (h : FirstDeepest derivations chosen position) :
    ∀ derivation ∈ derivations, ∃ index ≤ position, derivation.firstDiagnostic = some index := by
  obtain ⟨before, after, rfl, hchosen, hbefore, hafter⟩ := h
  intro derivation hd
  rw [List.mem_append, List.mem_cons] at hd
  rcases hd with hd | rfl | hd
  · obtain ⟨index, hlt, hindex⟩ := hbefore derivation hd
    exact ⟨index, Nat.le_of_lt hlt, hindex⟩
  · exact ⟨position, Nat.le_refl position, hchosen⟩
  · exact hafter derivation hd

/-- A list without a clean derivation has an earliest derivation among the deepest. -/
theorem exists_firstDeepest {derivations : List Derivation} (hne : derivations ≠ [])
    (hmarked : ∀ derivation ∈ derivations, ¬derivation.Clean) :
    ∃ chosen position, FirstDeepest derivations chosen position := by
  induction derivations with
  | nil => exact absurd rfl hne
  | cons head derivations ih =>
    obtain ⟨hhead, htail⟩ := List.forall_mem_cons.mp hmarked
    obtain ⟨index, hindex⟩ := Derivation.exists_firstDiagnostic hhead
    cases derivations with
    | nil =>
      refine ⟨head, index, [], [], rfl, hindex, ?_, ?_⟩
      · simp
      · simp
    | cons next derivations =>
      obtain ⟨chosen, position, before, after, hsplit, hchosen, hbefore, hafter⟩ :=
        ih (List.cons_ne_nil _ _) htail
      rcases Nat.lt_or_ge index position with hlt | hge
      · have hbefore' := List.forall_mem_cons.mpr ⟨⟨index, hlt, hindex⟩, hbefore⟩
        rw [hsplit]
        exact ⟨chosen, position, head :: before, after, rfl, hchosen, hbefore', hafter⟩
      · -- the head is at least as deep as all others and comes before them
        refine ⟨head, index, [], next :: derivations, rfl, hindex, by simp, ?_⟩
        intro derivation hd
        rw [hsplit, List.mem_append, List.mem_cons] at hd
        rcases hd with hd | rfl | hd
        · obtain ⟨i, hi, hfirst⟩ := hbefore derivation hd
          exact ⟨i, by omega, hfirst⟩
        · exact ⟨position, hge, hchosen⟩
        · obtain ⟨i, hi, hfirst⟩ := hafter derivation hd
          exact ⟨i, by omega, hfirst⟩

/-- Either there is a first clean derivation or no clean one at all. -/
theorem firstClean_or_marked (derivations : List Derivation) :
    (∃ chosen, FirstClean derivations chosen) ∨ ∀ derivation ∈ derivations, ¬derivation.Clean := by
  induction derivations with
  | nil => right; simp
  | cons head derivations ih =>
    by_cases hhead : head.Clean
    · exact .inl ⟨head, [], derivations, rfl, hhead, by simp⟩
    · rcases ih with ⟨chosen, before, after, hsplit, hclean, hbefore⟩ | hmarked
      · left
        have hbefore' : ∀ derivation ∈ head :: before, ¬derivation.Clean :=
          List.forall_mem_cons.mpr ⟨hhead, hbefore⟩
        rw [hsplit]
        exact ⟨chosen, head :: before, after, rfl, hclean, hbefore'⟩
      · exact .inr (List.forall_mem_cons.mpr ⟨hhead, hmarked⟩)

/-- The deepest of a diagnostic and the first diagnostics of a list of derivations; the one found
first counts if several are equally deep. -/
def Diagnostic.deepest (found : Option Diagnostic) : List Derivation → Option Diagnostic
  | [] => found
  | derivation :: derivations =>
    match derivation.diagnostic? with
    | none => deepest found derivations
    | some next => deepest (some (deeper found next)) derivations

/-- A derivation with a first diagnostic stands for one at its position. -/
theorem Derivation.exists_diagnostic? {derivation : Derivation} {position : Nat}
    (h : derivation.firstDiagnostic = some position) :
    ∃ label, derivation.diagnostic? = some ⟨label, position⟩ := by
  obtain ⟨label, hlabel⟩ := exists_label h
  exact ⟨label, diagnostic?_eq_some h hlabel⟩

/-- Derivations whose first diagnostics lie before a position leave the deepest before it. -/
theorem Diagnostic.position_lt_of_mem_deepest {derivations : List Derivation} {position : Nat}
    {found : Option Diagnostic} (hfound : ∀ best ∈ found, best.position < position)
    (h : ∀ derivation ∈ derivations, ∃ index < position, derivation.firstDiagnostic = some index) :
    ∀ best ∈ deepest found derivations, best.position < position := by
  induction derivations generalizing found with
  | nil => exact hfound
  | cons head derivations ih =>
    obtain ⟨⟨index, hlt, hindex⟩, htail⟩ := List.forall_mem_cons.mp h
    obtain ⟨label, hlabel⟩ := Derivation.exists_diagnostic? hindex
    rw [deepest, hlabel]
    refine ih ?_ htail
    intro best hbest
    obtain rfl := Option.some.inj hbest
    cases found with
    | none => exact hlt
    | some earlier =>
      rw [deeper]
      split
      · exact hfound earlier rfl
      · exact hlt

/-- Derivations whose first diagnostics are not deeper than the one found do not replace it. -/
theorem Diagnostic.deepest_eq_self {derivations : List Derivation} {best : Diagnostic}
    (h : ∀ derivation ∈ derivations,
      ∃ index ≤ best.position, derivation.firstDiagnostic = some index) :
    deepest (some best) derivations = some best := by
  induction derivations with
  | nil => rfl
  | cons head derivations ih =>
    obtain ⟨⟨index, hle, hindex⟩, htail⟩ := List.forall_mem_cons.mp h
    obtain ⟨label, hlabel⟩ := Derivation.exists_diagnostic? hindex
    have hkeep : deeper (some best) ⟨label, index⟩ = best := if_pos hle
    rw [deepest, hlabel]
    dsimp only
    rw [hkeep, ih htail]

/-- A diagnostic behind all that were found so far replaces them. -/
theorem Diagnostic.deeper_eq_right {found : Option Diagnostic} {next : Diagnostic}
    (h : ∀ best ∈ found, best.position < next.position) : deeper found next = next := by
  cases found with
  | none => rfl
  | some best => exact if_neg (Nat.not_le_of_lt (h best rfl))

namespace Outcome

/-- Derivations with a diagnostic only change what was found so far. -/
theorem select_append {before : List Derivation} (after : List Derivation)
    (found : Option Diagnostic) (h : ∀ derivation ∈ before, ¬derivation.Clean) :
    select found (.ofList (before ++ after)) =
      select (Diagnostic.deepest found before) (.ofList after) := by
  induction before generalizing found with
  | nil => rfl
  | cons head before ih =>
    obtain ⟨hhead, hbefore⟩ := List.forall_mem_cons.mp h
    obtain ⟨index, hindex⟩ := Derivation.exists_firstDiagnostic hhead
    obtain ⟨label, hlabel⟩ := Derivation.exists_diagnostic? hindex
    rw [List.cons_append, Enumeration.ofList, select, Diagnostic.deepest, hlabel]
    exact ih _ hbefore

/-- The first clean derivation is the match, whatever was found before. -/
theorem select_of_firstClean {derivations : List Derivation} {chosen : Derivation}
    (found : Option Diagnostic) (h : FirstClean derivations chosen) :
    select found (.ofList derivations) = .matched chosen.items := by
  obtain ⟨before, after, rfl, hclean, hbefore⟩ := h
  rw [select_append _ _ hbefore, Enumeration.ofList, select,
    Derivation.diagnostic?_of_clean hclean]

/-- Without a clean derivation, the earliest of the deepest gives the diagnostic. -/
theorem select_of_firstDeepest {derivations : List Derivation} {chosen : Derivation}
    {position : Nat} {label : String} (h : FirstDeepest derivations chosen position)
    (hlabel : chosen.items[position]? = some (.diagnostic label)) :
    select none (.ofList derivations) = .diagnostic ⟨label, position⟩ := by
  obtain ⟨-, hmarked⟩ := h.marked
  obtain ⟨before, after, rfl, hchosen, hbefore, hafter⟩ := h
  obtain ⟨hmarkedBefore, hmarkedFrom⟩ := List.forall_mem_append.mp hmarked
  obtain ⟨-, hmarkedAfter⟩ := List.forall_mem_cons.mp hmarkedFrom
  have hbehind : ∀ best ∈ Diagnostic.deepest none before, best.position < position :=
    Diagnostic.position_lt_of_mem_deepest (by simp) hbefore
  rw [select_append _ _ hmarkedBefore, Enumeration.ofList, select,
    Derivation.diagnostic?_eq_some hchosen hlabel]
  dsimp only
  rw [Diagnostic.deeper_eq_right hbehind, ← List.append_nil after,
    select_append _ _ hmarkedAfter, Diagnostic.deepest_eq_self hafter]
  rfl

end Outcome

namespace Grammar

variable (grammar : Grammar) (tokens : List Token)

/-- The outcome is selected from the list of complete derivations. -/
theorem parse_eq_select : grammar.parse tokens = .select none (.ofList (grammar.explain tokens)) := by
  rw [parse, explain, Enumeration.ofList_toList]

/-- One of three cases: there is no complete derivation, or a first clean one, or an earliest
deepest one; each case has its own kind of outcome. -/
theorem parse_cases :
    (grammar.explain tokens = [] ∧ grammar.parse tokens = .noMatch) ∨
      (∃ chosen, FirstClean (grammar.explain tokens) chosen ∧
        grammar.parse tokens = .matched chosen.items) ∨
      ∃ chosen position label, FirstDeepest (grammar.explain tokens) chosen position ∧
        chosen.items[position]? = some (.diagnostic label) ∧
        grammar.parse tokens = .diagnostic ⟨label, position⟩ := by
  rw [parse_eq_select]
  rcases firstClean_or_marked (grammar.explain tokens) with ⟨chosen, h⟩ | hmarked
  · exact .inr (.inl ⟨chosen, h, Outcome.select_of_firstClean none h⟩)
  · by_cases hne : grammar.explain tokens = []
    · exact .inl ⟨hne, by rw [hne]; rfl⟩
    · obtain ⟨chosen, position, h⟩ := exists_firstDeepest hne hmarked
      obtain ⟨label, hlabel⟩ := h.exists_label
      exact .inr (.inr ⟨chosen, position, label, h, hlabel,
        Outcome.select_of_firstDeepest h hlabel⟩)

/-- There is no match exactly if there is no complete derivation. -/
theorem parse_eq_noMatch_iff :
    grammar.parse tokens = .noMatch ↔ grammar.explain tokens = [] := by
  constructor
  · intro hparse
    rcases grammar.parse_cases tokens with ⟨hnil, -⟩ | ⟨_, -, h⟩ | ⟨_, _, _, -, -, h⟩
    · exact hnil
    · simp [h] at hparse
    · simp [h] at hparse
  · intro hnil
    rw [parse_eq_select, hnil]
    rfl

/-- There is a match exactly if some complete derivation is clean. -/
theorem isMatch_parse_iff :
    (grammar.parse tokens).isMatch = true ↔
      ∃ derivation ∈ grammar.explain tokens, derivation.Clean := by
  rcases grammar.parse_cases tokens with ⟨hnil, h⟩ | ⟨_, hfirst, h⟩ | ⟨_, _, _, hdeepest, -, h⟩
  · simp [h, hnil, Outcome.isMatch]
  · simp only [h, Outcome.isMatch, true_iff]
    exact hfirst.exists_clean
  · simp only [h, Outcome.isMatch, Bool.false_eq_true, false_iff]
    intro hsome
    obtain ⟨derivation, hd, hclean⟩ := hsome
    exact hdeepest.marked.2 derivation hd hclean

/-- A match has the items of the first clean derivation. -/
theorem parse_eq_matched_iff (items : List Item) :
    grammar.parse tokens = .matched items ↔
      ∃ chosen, FirstClean (grammar.explain tokens) chosen ∧ chosen.items = items := by
  constructor
  · intro hparse
    rcases grammar.parse_cases tokens with ⟨-, h⟩ | ⟨chosen, hfirst, h⟩ | ⟨_, _, _, -, -, h⟩
    · simp [h] at hparse
    · exact ⟨chosen, hfirst, Outcome.matched.inj (h.symm.trans hparse)⟩
    · simp [h] at hparse
  · intro hchosen
    obtain ⟨chosen, hfirst, hitems⟩ := hchosen
    rw [parse_eq_select, Outcome.select_of_firstClean none hfirst, hitems]

/-- A diagnostic is the first one of the earliest among the deepest derivations. -/
theorem parse_eq_diagnostic_iff (label : String) (position : Nat) :
    grammar.parse tokens = .diagnostic ⟨label, position⟩ ↔
      ∃ chosen, FirstDeepest (grammar.explain tokens) chosen position ∧
        chosen.items[position]? = some (.diagnostic label) := by
  constructor
  · intro hparse
    rcases grammar.parse_cases tokens with ⟨-, h⟩ | ⟨_, -, h⟩ | ⟨chosen, _, _, hdeepest, hlabel, h⟩
    · simp [h] at hparse
    · simp [h] at hparse
    · obtain ⟨rfl, rfl⟩ := Diagnostic.mk.inj (Outcome.diagnostic.inj (h.symm.trans hparse))
      exact ⟨chosen, hdeepest, hlabel⟩
  · intro hchosen
    obtain ⟨chosen, hdeepest, hlabel⟩ := hchosen
    rw [parse_eq_select, Outcome.select_of_firstDeepest hdeepest hlabel]

example : (missing "early" ||| missing "late").parse [.word "Ann"] =
    .diagnostic ⟨"early", 0⟩ := by rfl

example : (missing "name" ||| (word &&& missing "age")).parse [.word "Ann"] =
    .diagnostic ⟨"age", 1⟩ := by rfl

end Grammar

end MessageGrammar
