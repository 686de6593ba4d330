import MessageGrammar.Proofs.Positions

/-!
# Translations

A change of tokens that keeps their kinds, together with a change of items that goes with it, is a
translation of readings. It is carried from one matcher to another if the second one, given the
changed tokens, has the changed readings of the first one in the same order. Grammars are built so
that the parts settle the whole: sequences, alternatives and repetitions carry every translation
that their parts carry.
-/

namespace MessageGrammar

/-- The ends of changed tokens are the changed ends. -/
theorem suffixes_map (f : Token → Token) (tokens : List Token) :
    suffixes (tokens.map f) = (suffixes tokens).map (List.map f) := by
  induction tokens with
  | nil => rfl
  | cons t rest ih => rw [List.map_cons, suffixes, ih, suffixes, List.map_cons, List.map_cons]

/-- A change of tokens and of the items that stand for them. -/
structure Translation where
  /-- The token in place of a token. -/
  token : Token → Token
  /-- The items in place of an item. -/
  item : Item → List Item
  /-- Grammars look at kinds only. -/
  kind_token : ∀ t, (token t).kind = t.kind
  /-- An item for a token is one for the token in its place. -/
  item_token : ∀ t, item (.token t) = [.token (token t)]
  /-- Marks stay as they are. -/
  item_diagnostic : ∀ label, item (.diagnostic label) = [.diagnostic label]

namespace Translation

variable (translation : Translation)

/-- The items in place of some items. -/
def items (items : List Item) : List Item :=
  items.flatMap translation.item

/-- The reading in place of a reading. -/
def reading (reading : Reading) : Reading :=
  ⟨translation.items reading.items, reading.rest.map translation.token⟩

/-- The derivation in place of a derivation; it ends in the same place. -/
def derivation (derivation : Derivation) : Derivation :=
  ⟨translation.items derivation.items, derivation.stop⟩

/-- Readings one after another are translated one after another. -/
theorem reading_after (earlier : List Item) (reading : Reading) :
    translation.reading (reading.after earlier) =
      (translation.reading reading).after (translation.items earlier) := by
  simp only [Translation.reading, items, Reading.after, List.flatMap_append]

/-- A reading takes as many tokens as before. -/
theorem place_reading (start length : Nat) (reading : Reading) :
    (translation.reading reading).place start length =
      translation.derivation (reading.place start length) := by
  simp only [Translation.reading, derivation, Reading.place, List.length_map]

/-- Given the changed tokens, the second matcher has the changed readings of the first one. -/
def Carries (first second : Matcher) : Prop :=
  ∀ tokens, (second (tokens.map translation.token)).toList =
    (first tokens).toList.map translation.reading

/-- A class accepts the changed token where it accepts the token. -/
theorem carries_token (kinds : TokenClass) :
    translation.Carries (Grammar.token kinds).read (Grammar.token kinds).read := by
  intro tokens
  cases tokens with
  | nil => rfl
  | cons t rest =>
    rw [List.map_cons, Grammar.read, Grammar.read, translation.kind_token]
    split
    · simp [reading, items, translation.item_token]
    · rfl

/-- The mark of a missing field stays as it is. -/
theorem carries_missing (label : String) :
    translation.Carries (Grammar.missing label).read (Grammar.missing label).read := by
  intro tokens
  have hmark : ∀ rest : List Token,
      translation.reading ⟨[.diagnostic label], rest⟩ =
        ⟨[.diagnostic label], rest.map translation.token⟩ := by
    intro rest
    simp [reading, items, translation.item_diagnostic]
  simp only [Grammar.read, Enumeration.toList_map, Enumeration.toList_ofList, suffixes_map,
    ← List.map_reverse, List.map_map]
  apply List.map_congr_left
  intro rest _
  exact (hmark rest).symm

variable {translation} (image : Grammar → Grammar)

/-- Dropped items need no change. -/
theorem Carries.drop {inner other : Grammar} (h : translation.Carries inner.read other.read) :
    translation.Carries (Grammar.drop inner).read (Grammar.drop other).read := by
  intro tokens
  simp only [Grammar.read, Enumeration.toList_map, h tokens, List.map_map]
  rfl

/-- A sequence carries what all its parts carry. -/
theorem carries_seq {parts : List Grammar}
    (h : ∀ part ∈ parts, translation.Carries part.read (image part).read) :
    translation.Carries (Grammar.readSeq parts) (Grammar.readSeq (parts.map image)) := by
  induction parts with
  | nil =>
    intro tokens
    rfl
  | cons part parts ih =>
    obtain ⟨hpart, hparts⟩ := List.forall_mem_cons.mp h
    intro tokens
    have hlater : ∀ reading : Reading,
        (Grammar.readSeq (parts.map image) (translation.reading reading).rest).toList =
          (Grammar.readSeq parts reading.rest).toList.map translation.reading :=
      fun reading => ih hparts reading.rest
    simp only [List.map_cons, Grammar.readSeq, Enumeration.toList_flatMap, Enumeration.toList_map,
      hpart tokens, List.flatMap_map, List.map_flatMap, hlater, List.map_map]
    apply List.flatMap_congr
    intro reading _
    apply List.map_congr_left
    intro later _
    exact (translation.reading_after reading.items later).symm

/-- An alternation carries what all its alternatives carry. -/
theorem carries_alt {alternatives : List Grammar}
    (h : ∀ alternative ∈ alternatives,
      translation.Carries alternative.read (image alternative).read) :
    translation.Carries (Grammar.readAlt alternatives)
      (Grammar.readAlt (alternatives.map image)) := by
  induction alternatives with
  | nil =>
    intro tokens
    rfl
  | cons alternative others ih =>
    obtain ⟨halternative, hothers⟩ := List.forall_mem_cons.mp h
    intro tokens
    simp only [List.map_cons, Grammar.readAlt, Enumeration.toList_append, halternative tokens,
      ih hothers tokens, List.map_append]

/-- The same alternative of a choice by priority is taken as before, since changed readings are
readings. -/
theorem carries_first {alternatives : List Grammar}
    (h : ∀ alternative ∈ alternatives,
      translation.Carries alternative.read (image alternative).read) :
    translation.Carries (Grammar.readFirst alternatives)
      (Grammar.readFirst (alternatives.map image)) := by
  induction alternatives with
  | nil =>
    intro tokens
    rfl
  | cons alternative others ih =>
    obtain ⟨halternative, hothers⟩ := List.forall_mem_cons.mp h
    intro tokens
    simp only [List.map_cons, Grammar.toList_readFirst_cons, halternative tokens,
      ih hothers tokens, List.map_eq_nil_iff]
    split <;> rfl

section Repetition

variable {step step' : Matcher} {min : Nat} {max : Option Nat}

/-- The next iterations are the changed ones. -/
theorem Carries.stepsFrom (h : translation.Carries step step') (count : Nat) (rest : List Token) :
    ((Repetition.mk step' min max).stepsFrom count (rest.map translation.token)).toList =
      ((Repetition.mk step min max).stepsFrom count rest).toList.map translation.reading := by
  unfold Repetition.stepsFrom
  cases max with
  | none => exact h rest
  | some most =>
    dsimp only
    split
    · rfl
    · exact h rest

/-- An iteration is followed or passed over as before, since it takes as many tokens. -/
theorem follows_reading (count : Nat) (rest : List Token) (reading : Reading) :
    (Repetition.mk step' min max).Follows count (rest.map translation.token)
        (translation.reading reading) ↔
      (Repetition.mk step min max).Follows count rest reading := by
  simp only [Repetition.Follows, Translation.reading, List.length_map]

/-- The readings from a level are the changed ones. The induction is along the recursion on the
level, so the levels behind each followed iteration are settled. -/
theorem Carries.unrolled (h : translation.Carries step step') (count : Nat) (rest : List Token) :
    (Repetition.mk step' min max).unrolled count (rest.map translation.token) =
      ((Repetition.mk step min max).unrolled count rest).map translation.reading := by
  induction count, rest using Repetition.unrolled.induct ⟨step, min, max⟩ with
  | case1 count rest ih =>
    rw [Repetition.unrolled_eq, Repetition.unrolled_eq, List.map_append, List.map_flatMap,
      h.stepsFrom, List.flatMap_map]
    congr 1
    · apply List.flatMap_congr
      intro reading _
      unfold Repetition.through
      by_cases hf : (Repetition.mk step min max).Follows count rest reading
      · have hlater := ih reading hf
        rw [if_pos hf, if_pos ((follows_reading count rest reading).mpr hf), List.map_map]
        dsimp only [Translation.reading] at hlater ⊢
        rw [hlater, List.map_map]
        apply List.map_congr_left
        intro later _
        exact (translation.reading_after reading.items later).symm
      · rw [if_neg hf, if_neg (mt (follows_reading count rest reading).mp hf)]
        rfl
    · unfold Repetition.ending
      split <;> rfl

/-- A repetition carries what its iterations carry. -/
theorem Carries.repetition (h : translation.Carries step step') :
    translation.Carries (Repetition.enumerate ⟨step, min, max⟩)
      (Repetition.enumerate ⟨step', min, max⟩) := by
  intro tokens
  rw [Repetition.toList_enumerate, Repetition.toList_enumerate, h.unrolled]

end Repetition

/-- Derivations are carried with the readings they come from, from every start. -/
theorem Carries.derivationsFrom {first second : Grammar}
    (h : translation.Carries first.read second.read) (tokens : List Token) (start : Nat) :
    (second.derivationsFrom (tokens.map translation.token) start).toList =
      (first.derivationsFrom tokens start).toList.map translation.derivation := by
  rw [Grammar.toList_derivationsFrom, Grammar.toList_derivationsFrom, ← List.map_drop,
    h (tokens.drop start), List.length_map, List.map_map, List.map_map]
  apply List.map_congr_left
  intro reading _
  exact translation.place_reading start _ reading

end Translation

end MessageGrammar
