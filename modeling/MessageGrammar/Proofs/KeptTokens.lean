import MessageGrammar.Grammar.Builtin
import MessageGrammar.Proofs.Coverage
import MessageGrammar.Proofs.Passages

/-!
# What a match keeps of a message

The items of a match stand for tokens of the message in their order. Where a grammar drops nothing
but single delimiters, a match without diagnostics leaves out nothing else: the mark of a missing
field, which may take any tokens, stays visible inside sequences, repetitions and fields.
-/

namespace MessageGrammar

/-- Some tokens are others with nothing but delimiters left out. -/
structure Kept (taken kept : List Token) : Prop where
  /-- The order is the same, and nothing is added. -/
  sublist : kept.Sublist taken
  /-- All tokens but delimiters are there. -/
  meaningful : kept.filter (fun t => !t.isDelimiter) = taken.filter fun t => !t.isDelimiter

namespace Kept

variable {taken kept taken' kept' : List Token}

/-- All tokens are kept. -/
theorem refl (taken : List Token) : Kept taken taken :=
  ⟨List.Sublist.refl taken, rfl⟩

/-- A delimiter is left out. -/
theorem delimiter {t : Token} (h : t.isDelimiter = true) : Kept [t] [] :=
  ⟨List.nil_sublist [t], by simp [h]⟩

/-- What is kept of two parts is kept of both together. -/
theorem append (h : Kept taken kept) (h' : Kept taken' kept') :
    Kept (taken ++ taken') (kept ++ kept') := by
  refine ⟨h.sublist.append h'.sublist, ?_⟩
  rw [List.filter_append, List.filter_append, h.meaningful, h'.meaningful]

end Kept

/-- The tokens of a message from a start up to a stop. -/
def stretch (tokens : List Token) (start stop : Nat) : List Token :=
  (tokens.drop start).take (stop - start)

/-- The tokens up to a position and from there on. -/
theorem stretch_append (tokens : List Token) {start middle stop : Nat} (h : start ≤ middle)
    (h' : middle ≤ stop) :
    stretch tokens start middle ++ stretch tokens middle stop = stretch tokens start stop := by
  have hsum : stop - start = (middle - start) + (stop - middle) := by omega
  have hdrop : tokens.drop middle = (tokens.drop start).drop (middle - start) := by
    rw [List.drop_drop, Nat.add_sub_cancel' h]
  rw [stretch, stretch, stretch, hsum, List.take_add, hdrop]

/-- The token at a position is the stretch up to the next one. -/
theorem stretch_succ {tokens : List Token} {start : Nat} {t : Token}
    (h : tokens[start]? = some t) : stretch tokens start (start + 1) = [t] := by
  obtain ⟨hlt, rfl⟩ := List.getElem?_eq_some_iff.mp h
  rw [stretch, List.drop_eq_getElem_cons hlt, Nat.add_sub_cancel_left]
  rfl

namespace Grammar

/-- What is dropped is the class of delimiters. -/
def DropsOnlyDelimiters : Grammar → Prop
  | drop inner => inner = token .delimiter
  | _ => True

instance : DecidablePred DropsOnlyDelimiters
  | drop inner => inferInstanceAs (Decidable (inner = token .delimiter))
  | token _ | seq _ | alt _ | first _ | repetition _ _ _ | missing _ | tag _ _ => isTrue trivial

/-- Items without a mark keep the tokens that were taken for them. -/
def KeepsTokens (tokens : List Token) : Passage := fun start items stop =>
  (∀ item ∈ items, item.isDiagnostic = false) →
    Kept (stretch tokens start stop) (items.flatMap Item.tokens)

variable {tokens : List Token}

/-- Tokens are kept in two passages one after another. -/
theorem composable_keepsTokens (tokens : List Token) :
    Composable tokens.length (KeepsTokens tokens) where
  stay start _ _ := by
    have hnone : stretch tokens start start = [] := by simp [stretch]
    rw [hnone]
    exact Kept.refl []
  join hstart hstop _ hfirst hothers hclean := by
    obtain ⟨hleft, hright⟩ := List.forall_mem_append.mp hclean
    rw [← stretch_append tokens hstart hstop, List.flatMap_append]
    exact (hfirst hleft).append (hothers hright)

/-- A class keeps the token that it accepts. -/
theorem keepsTokens_token (kinds : TokenClass) :
    Keeps tokens (KeepsTokens tokens) (token kinds) := by
  intro start _ items stop hyields _
  obtain ⟨t, htoken, -, rfl, rfl⟩ := yields_token_iff.mp hyields
  rw [stretch_succ htoken]
  exact Kept.refl [t]

/-- What is dropped is a delimiter. -/
theorem keepsTokens_drop {inner : Grammar} (h : (drop inner).DropsOnlyDelimiters) :
    Keeps tokens (KeepsTokens tokens) (drop inner) := by
  intro start _ items stop hyields _
  obtain ⟨rfl, dropped, hdropped⟩ := yields_drop_iff.mp hyields
  obtain rfl : inner = token .delimiter := h
  obtain ⟨t, htoken, haccepts, -, rfl⟩ := yields_token_iff.mp hdropped
  rw [stretch_succ htoken]
  exact Kept.delimiter haccepts

/-- The mark of a missing field keeps nothing, but it is no item of a match. -/
theorem keepsTokens_missing (label : String) :
    Keeps tokens (KeepsTokens tokens) (missing label) := by
  intro start hs items stop hyields hclean
  obtain ⟨rfl, -⟩ := (yields_missing_iff hs).mp hyields
  exact absurd (hclean _ List.mem_cons_self) (by simp [Item.isDiagnostic])

/-- A field has the tokens of its items, and items with a mark are passed on with it. -/
theorem keepsTokens_tag (name : String) {inner : Grammar}
    (h : Keeps tokens (KeepsTokens tokens) inner) :
    Keeps tokens (KeepsTokens tokens) (tag name inner) := by
  intro start hs items stop hyields hclean
  obtain ⟨found, hfound, ⟨hnone, rfl⟩ | ⟨-, rfl⟩⟩ := yields_tag_iff.mp hyields
  · have hkept := h start hs found stop hfound hnone
    simpa [Item.tokens] using hkept
  · exact h start hs items stop hfound hclean

/-- A grammar that drops nothing but single delimiters loses no other token: the tokens of the items
of a match are those of the message in their order, with nothing but delimiters left out. -/
theorem kept_of_parse_eq_matched {grammar : Grammar} {items : List Item}
    (hdrops : grammar.Everywhere DropsOnlyDelimiters)
    (hparse : grammar.parse tokens = .matched items) :
    (items.flatMap Item.tokens).Sublist tokens ∧
      (items.flatMap Item.tokens).filter (fun t => !t.isDelimiter) =
        tokens.filter fun t => !t.isDelimiter := by
  obtain ⟨chosen, ⟨before, after, hsplit, hclean, -⟩, rfl⟩ :=
    (grammar.parse_eq_matched_iff tokens items).mp hparse
  have hmem : chosen ∈ grammar.explain tokens := by rw [hsplit]; simp
  have hyields := (mem_explain_iff.mp hmem).1
  have hkeeps : Keeps tokens (KeepsTokens tokens) grammar :=
    keeps_of_everywhere (composable_keepsTokens tokens) keepsTokens_token
      (fun inner hdrop _ => keepsTokens_drop hdrop) keepsTokens_missing
      (fun name inner _ hinner => keepsTokens_tag name hinner) hdrops
  have hkept := hkeeps 0 (Nat.zero_le _) chosen.items tokens.length hyields hclean
  have hall : stretch tokens 0 tokens.length = tokens := by simp [stretch]
  rw [hall] at hkept
  exact ⟨hkept.sublist, hkept.meaningful⟩

/-- Name, age and sex are kept, the delimiter between them is not. -/
theorem kept_of_tagged_demographics :
    Builtin.taggedDemographics.Everywhere DropsOnlyDelimiters ∧
      Builtin.taggedDemographics.parse
          [.word "Ann", .word "Lee", .delimiter ',', .integer 34, .word "F"] =
        .matched [.field "name" [.word "Ann", .word "Lee"], .field "age" [.integer 34],
          .field "sex" [.word "F"]] ∧
      [Token.word "Ann", .word "Lee", .integer 34, .word "F"].Sublist
        [.word "Ann", .word "Lee", .delimiter ',', .integer 34, .word "F"] := by
  have hdrops : Builtin.taggedDemographics.Everywhere DropsOnlyDelimiters := by decide
  have hparse : Builtin.taggedDemographics.parse
      [.word "Ann", .word "Lee", .delimiter ',', .integer 34, .word "F"] =
        .matched [.field "name" [.word "Ann", .word "Lee"], .field "age" [.integer 34],
          .field "sex" [.word "F"]] := by cbv
  exact ⟨hdrops, hparse, (kept_of_parse_eq_matched hdrops hparse).1⟩

end Grammar

end MessageGrammar
