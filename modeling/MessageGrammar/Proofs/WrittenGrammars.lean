import MessageGrammar.Grammar.Printer
import MessageGrammar.Proofs.Recognition

/-!
# Writing grammars down

When a text is the notation of a grammar, whatever stands before and behind it: one rule for each
form of the notation, from the texts of the parts to the text of the whole. The rules use only
names, calls, parentheses, bounds and operators with one blank on each side.
-/

namespace MessageGrammar

namespace Grammar

/-- The digits of a positive number do not start with zero. -/
theorem digits_eq_cons {n : Nat} (h : 0 < n) : ∃ c others, digits n = c :: others ∧ c ≠ '0' := by
  induction n using Nat.strongRecOn with
  | ind n ih =>
    rw [digits, Nat.toDigits_eq_if (by decide)]
    split
    next hless =>
      exact ⟨n.digitChar, [], rfl, fun hc => Nat.ne_of_gt h (Nat.digitChar_eq_zero.mp hc)⟩
    next hless =>
      obtain ⟨c, others, heq, hc⟩ := ih (n / 10) (by omega) (by omega)
      refine ⟨c, others ++ [(n % 10).digitChar], ?_, hc⟩
      rw [show Nat.toDigits 10 (n / 10) = c :: others from heq, List.cons_append]

/-- The digits of a number are a numeral. -/
theorem isNumeral_digits (n : Nat) : Notation.IsNumeral (digits n) := by
  rcases Nat.eq_zero_or_pos n with hzero | hpos
  · rw [hzero]
    exact .inl rfl
  · obtain ⟨c, others, heq, hc⟩ := digits_eq_cons hpos
    exact .inr ⟨c, others, heq, hc, fun d hd =>
      Nat.isDigit_of_mem_toDigits (by decide) (Nat.le_refl 10) hd⟩

/-- The digits of a number have its value. -/
theorem digitsValue_digits (n : Nat) : Decimal.digitsValue (digits n) = n := by
  calc Decimal.digitsValue (digits n)
      = Nat.ofDigitChars 10 (Nat.toDigits 10 n) 0 := by
        simp only [Decimal.digitsValue, digits, Nat.ofDigitChars_eq_foldl, Nat.mul_comm]
    _ = n := Nat.ofDigitChars_ten_toDigits

/-- Counts of a repetition that bounds can give: no greatest count, the same one twice, or a
greatest count above the least one with another word after it. -/
def HasRange (min : UInt64) : Option UInt64 → Prop
  | none => True
  | some max => min = max ∨ min < max ∧ max.toNat < UInt64.size - 1

/-- What is printed behind the least count of a repetition; nothing if the greatest one is the
same. -/
def printUpper (min : UInt64) : Option UInt64 → List Char
  | none => [':']
  | some max => if max = min then [] else ':' :: digits (max.toNat + 1)

/-- Bounds are printed in brackets, the least count first. -/
theorem printBounds_eq (min : UInt64) (max : Option UInt64) :
    printBounds min max = '[' :: (digits min.toNat ++ printUpper min max) ++ [']'] := by
  cases max with
  | none => simp [printBounds, printUpper]
  | some max => by_cases h : max = min <;> simp [printBounds, printUpper, h]

end Grammar

namespace Notation

/-- An upper bound one above the greatest count gives this count. -/
theorem Bounds.apply_of_lt {min max : UInt64} (hless : min < max)
    (hsize : max.toNat < UInt64.size - 1) {span : Span} {grammar : Grammar} :
    Bounds.apply ⟨some min, some (some (max + 1)), span⟩ grammar =
      .ok (.repetition grammar min (some max)) := by
  have hnext := toNat_add_one hsize
  have hle : ¬ max + 1 ≤ min := by
    rw [UInt64.le_iff_toNat_le, hnext]
    rw [UInt64.lt_iff_toNat_lt] at hless
    omega
  have hpos : max + 1 ≠ 0 := by
    intro hzero
    rw [hzero] at hnext
    cases hnext
  have hback : max + 1 - 1 = max := by simp
  simp [Bounds.apply, hle, Grammar.repeated, Grammar.Limit.least, Grammar.Limit.greatest, hpos,
    hback]

/-- The chain of grammars for an operator. -/
def Operator.grammar : Operator → List Grammar → Grammar
  | priority => .first
  | sequence => .seq
  | alternation => .alt

/-- A chain of expressions denotes the chain of what they denote. -/
theorem Expression.resolve_build (operator : Operator) (trees : List Expression) :
    (operator.build trees).resolve = (Expression.resolveAll trees).map operator.grammar := by
  cases operator <;> simp only [Operator.build, Operator.grammar, Expression.resolve]

section Stretches

variable {start stop : Cursor}

/-- One blank is white space. -/
theorem Blanks.of_space (h : Spelled [' '] start stop) : Blanks start stop :=
  ⟨[' '], h, List.forall_mem_singleton.mpr (by decide)⟩

/-- A mark with a blank on each side. -/
theorem Mark.of_spaces {c : Char} (h : Spelled [' ', c, ' '] start stop) : Mark c start stop := by
  obtain ⟨opened, hbefore, h⟩ := spelled_cons_iff.mp h
  obtain ⟨closed, hhere, hafter⟩ := spelled_cons_iff.mp h
  exact ⟨opened, closed, .of_space hbefore, hhere, .of_space hafter⟩

/-- Something between a text and a closing parenthesis, the text ending with the opening one. -/
theorem enclosed_of_spelled (modifier : List Char) {argument : List Char}
    (h : Spelled (modifier ++ ['('] ++ argument ++ [')']) start stop) :
    ∃ a b c, Spelled modifier start a ∧ Mark '(' a b ∧ Spelled argument b c ∧ Mark ')' c stop := by
  obtain ⟨c, h, hclosed⟩ := spelled_append_iff.mp h
  obtain ⟨b, h, hargument⟩ := spelled_append_iff.mp h
  obtain ⟨a, hmodifier, hopened⟩ := spelled_append_iff.mp h
  exact ⟨a, b, c, hmodifier, .of_bare hopened, hargument, .of_bare hclosed⟩

/-- The digits of a count stand for it. -/
theorem count_of_digits {n : UInt64} (h : Spelled (Grammar.digits n.toNat) start stop) :
    Count n start stop :=
  ⟨_, h, Grammar.isNumeral_digits _, Grammar.digitsValue_digits _⟩

/-- What is printed behind a least count stands for the greatest one. -/
theorem upper_of_printUpper {min : UInt64} {max : Option UInt64} (hrange : Grammar.HasRange min max)
    (h : Spelled (Grammar.printUpper min max) start stop) :
    ∃ high, Maybe Upper high start stop ∧ ∀ span grammar,
      Bounds.apply ⟨some min, high, span⟩ grammar = .ok (.repetition grammar min max) := by
  cases max with
  | none => exact ⟨some none, .present ⟨stop, .of_bare h, .absent stop⟩, fun _ _ => rfl⟩
  | some max =>
    rw [Grammar.printUpper] at h
    split at h
    next hsame =>
      rw [spelled_nil_iff.mp h, hsame]
      exact ⟨none, .absent start, fun _ _ => rfl⟩
    next hother =>
      obtain ⟨hless, hsize⟩ := hrange.resolve_left (Ne.symm hother)
      obtain ⟨place, hcolon, hdigits⟩ := spelled_cons_iff.mp h
      rw [← toNat_add_one hsize] at hdigits
      refine ⟨some (some (max + 1)), .present ⟨place, .of_bare hcolon, ?_⟩, fun _ _ => ?_⟩
      · exact .present (.of_bare (count_of_digits hdigits))
      · exact Bounds.apply_of_lt hless hsize

/-- Printed bounds stand for their counts. -/
theorem range_of_printBounds {min : UInt64} {max : Option UInt64}
    (hrange : Grammar.HasRange min max)
    (h : Spelled (Grammar.printBounds min max) start stop) :
    ∃ bounds, Range bounds start stop ∧
      ∀ grammar, bounds.apply grammar = .ok (.repetition grammar min max) := by
  rw [Grammar.printBounds_eq] at h
  obtain ⟨c, h, hclosed⟩ := spelled_append_iff.mp h
  obtain ⟨a, hopened, h⟩ := spelled_cons_iff.mp h
  obtain ⟨b, hlow, hupper⟩ := spelled_append_iff.mp h
  obtain ⟨high, hhigh, hgiven⟩ := upper_of_printUpper hrange hupper
  refine ⟨⟨some min, high, _⟩, ⟨a, b, c, hopened, ?_, hhigh, hclosed, rfl⟩, hgiven _⟩
  exact .present (.of_bare (count_of_digits hlow))

end Stretches

/-- A text is an expression of a kind for a grammar, wherever it stands. -/
def Writes (layer : Layer) (text : List Char) (grammar : Grammar) : Prop :=
  ∀ start stop, Spelled text start stop →
    ∃ tree, Derives layer tree start stop ∧ tree.resolve = .ok grammar

section Writes

variable {text : List Char} {grammar : Grammar}

/-- A text that is an expression for a grammar denotes it. -/
theorem Writes.compile (h : Writes (.chain .alternation) text grammar) :
    Grammar.compile (String.ofList text) = .ok grammar := by
  have hwhole : Spelled text ⟨0, text⟩ ⟨text.length, []⟩ :=
    ⟨(List.append_nil text).symm, (Nat.zero_add text.length).symm⟩
  obtain ⟨tree, hderived, hresolved⟩ := h _ _ hwhole
  rw [Grammar.compile, String.toList_ofList, Expression.ofText_of_denotes hderived]
  exact hresolved

/-- Atoms may stand without white space. -/
theorem Writes.atom (h : Writes .bare text grammar) : Writes .atom text grammar := by
  intro start stop hspelled
  obtain ⟨tree, hderived, hresolved⟩ := h start stop hspelled
  exact ⟨tree, .atom (.refl start) hderived (.refl stop), hresolved⟩

/-- Atoms may stand without bounds. -/
theorem Writes.item (h : Writes .atom text grammar) : Writes .item text grammar := by
  intro start stop hspelled
  obtain ⟨tree, hderived, hresolved⟩ := h start stop hspelled
  exact ⟨tree, .plain hderived, hresolved⟩

/-- One element is a chain. -/
theorem Writes.single (operator : Operator) (h : Writes operator.operand text grammar) :
    Writes (.chain operator) text grammar := by
  intro start stop hspelled
  obtain ⟨tree, hderived, hresolved⟩ := h start stop hspelled
  exact ⟨tree, .chain hderived (.nil stop), hresolved⟩

/-- Items may stand between all operators. -/
theorem Writes.operand (h : Writes .item text grammar) (operator : Operator) :
    Writes operator.operand text grammar := by
  cases operator with
  | priority => exact h
  | sequence => exact Writes.single .priority h
  | alternation =>
    exact Writes.single .sequence (Writes.single .priority h)

/-- Items are expressions. -/
theorem Writes.expression (h : Writes .item text grammar) :
    Writes (.chain .alternation) text grammar :=
  Writes.single .alternation (h.operand .alternation)

/-- An expression in parentheses is an atom. -/
theorem Writes.group (h : Writes (.chain .alternation) text grammar) :
    Writes .bare ('(' :: text ++ [')']) grammar := by
  intro start stop hspelled
  obtain ⟨a, b, c, hmodifier, hopened, hargument, hclosed⟩ :=
    enclosed_of_spelled [] hspelled
  rw [spelled_nil_iff.mp hmodifier] at hopened
  obtain ⟨tree, hderived, hresolved⟩ := h b c hargument
  exact ⟨tree, .group hopened hderived hclosed, hresolved⟩

/-- Classes have names. -/
theorem isName_name (kinds : TokenClass) : IsName kinds.name.toList := by
  cases kinds <;> decide

/-- Names of classes denote what is looked up under them. -/
theorem writes_name {kinds : TokenClass} (h : matcher? kinds.name = some grammar) :
    Writes .bare kinds.name.toList grammar := by
  intro start stop hspelled
  refine ⟨_, .name (isName_name kinds) hspelled, ?_⟩
  rw [String.ofList_toList, Expression.resolve, h]

/-- A quoted text denotes a missing field with this label. -/
theorem writes_missing {written : List Char} {label : String} (h : Quoted written label.toList) :
    Writes .bare ("missing(".toList ++ ('"' :: written ++ ['"']) ++ [')']) (.missing label) := by
  intro start stop hspelled
  obtain ⟨a, b, c, hmodifier, hopened, hargument, hclosed⟩ :=
    enclosed_of_spelled "missing".toList hspelled
  exact ⟨_, .missing hmodifier hopened (.of_bare ⟨written, hargument, h⟩) hclosed, by
    rw [Expression.resolve]⟩

/-- Expressions may be dropped. -/
theorem Writes.drop (h : Writes (.chain .alternation) text grammar) :
    Writes .bare ("Drop(".toList ++ text ++ [')']) (.drop grammar) := by
  intro start stop hspelled
  obtain ⟨a, b, c, hmodifier, hopened, hargument, hclosed⟩ :=
    enclosed_of_spelled "Drop".toList hspelled
  obtain ⟨tree, hderived, hresolved⟩ := h b c hargument
  refine ⟨_, .drop hmodifier hopened hderived hclosed, ?_⟩
  rw [Expression.resolve, hresolved]
  rfl

/-- Expressions may be optional. -/
theorem Writes.optional (h : Writes (.chain .alternation) text grammar) :
    Writes .bare ("Optional(".toList ++ text ++ [')']) grammar.optional := by
  intro start stop hspelled
  obtain ⟨a, b, c, hmodifier, hopened, hargument, hclosed⟩ :=
    enclosed_of_spelled "Optional".toList hspelled
  obtain ⟨tree, hderived, hresolved⟩ := h b c hargument
  refine ⟨_, .optional hmodifier hopened hderived hclosed, ?_⟩
  rw [Expression.resolve, hresolved]
  rfl

/-- Expressions may be named, the name in quotes. -/
theorem Writes.tag {written : List Char} {name : String} (hname : Quoted written name.toList)
    (h : Writes (.chain .alternation) text grammar) :
    Writes .bare ("Tag(".toList ++ ('"' :: written ++ ['"']) ++ ',' :: ' ' :: text ++ [')'])
      (.tag name grammar) := by
  intro start stop hspelled
  have htext : "Tag(".toList ++ ('"' :: written ++ ['"']) ++ ',' :: ' ' :: text ++ [')'] =
      "Tag".toList ++ ['('] ++ (('"' :: written ++ ['"']) ++ ([','] ++ ([' '] ++ text))) ++
        [')'] := by
    simp
  rw [htext] at hspelled
  obtain ⟨a, b, e, hmodifier, hopened, harguments, hclosed⟩ :=
    enclosed_of_spelled "Tag".toList hspelled
  obtain ⟨c, hfield, harguments⟩ := spelled_append_iff.mp harguments
  obtain ⟨place, hcomma, harguments⟩ := spelled_append_iff.mp harguments
  obtain ⟨d, hspace, hargument⟩ := spelled_append_iff.mp harguments
  obtain ⟨tree, hderived, hresolved⟩ := h d e hargument
  have hmark : Mark ',' c d := ⟨c, place, .refl c, hcomma, .of_space hspace⟩
  refine ⟨_, .tag hmodifier hopened (.of_bare ⟨written, hfield, hname⟩) hmark hderived hclosed, ?_⟩
  rw [Expression.resolve, hresolved]
  rfl

/-- Atoms may be repeated. -/
theorem Writes.bounded {min : UInt64} {max : Option UInt64} (hrange : Grammar.HasRange min max)
    (h : Writes .atom text grammar) :
    Writes .item (text ++ Grammar.printBounds min max) (.repetition grammar min max) := by
  intro start stop hspelled
  obtain ⟨a, hcontent, hbounds⟩ := spelled_append_iff.mp hspelled
  obtain ⟨tree, hderived, hresolved⟩ := h start a hcontent
  obtain ⟨bounds, hstands, hgiven⟩ := range_of_printBounds hrange hbounds
  refine ⟨_, .bounded hderived (.of_bare hstands), ?_⟩
  rw [Expression.resolve, hresolved]
  exact hgiven grammar

/-- Elements behind the first one stand behind the operator with blanks around it. -/
theorem derivesTail_of_spelled {operator : Operator} {write : Grammar → List Char}
    {parts : List Grammar} (h : ∀ part ∈ parts, Writes operator.operand (write part) part)
    {start stop : Cursor}
    (hspelled : Spelled (parts.flatMap fun part => [' ', operator.symbol, ' '] ++ write part)
      start stop) :
    ∃ trees, DerivesTail operator trees start stop ∧ Expression.resolveAll trees = .ok parts := by
  induction parts generalizing start with
  | nil =>
    rw [spelled_nil_iff.mp hspelled]
    exact ⟨[], .nil start, rfl⟩
  | cons part others ih =>
    rw [List.flatMap_cons, List.append_assoc] at hspelled
    obtain ⟨a, hsymbol, hspelled⟩ := spelled_append_iff.mp hspelled
    obtain ⟨b, hpart, hothers⟩ := spelled_append_iff.mp hspelled
    obtain ⟨hhead, htail⟩ := List.forall_mem_cons.mp h
    obtain ⟨tree, hderived, hresolved⟩ := hhead a b hpart
    obtain ⟨trees, hderivedAll, hresolvedAll⟩ := ih htail hothers
    refine ⟨tree :: trees, .cons (.of_spaces hsymbol) hderived hderivedAll, ?_⟩
    rw [Expression.resolveAll, hresolved, hresolvedAll]
    rfl

/-- Chains are expressions. -/
theorem Writes.loosest (operator : Operator) (h : Writes (.chain operator) text grammar) :
    Writes (.chain .alternation) text grammar := by
  cases operator with
  | priority => exact Writes.single .alternation (Writes.single .sequence h)
  | sequence => exact Writes.single .alternation h
  | alternation => exact h

/-- Printed chains of items denote their chain. -/
theorem writes_chain (operator : Operator) {write : Grammar → List Char} {parts : List Grammar}
    (hlength : 2 ≤ parts.length) (h : ∀ part ∈ parts, Writes .item (write part) part) :
    Writes .bare (Grammar.printChain operator.symbol (parts.map write))
      (operator.grammar parts) := by
  refine Writes.group (Writes.loosest operator fun start stop hspelled => ?_)
  match parts, hlength with
  | head :: next :: others, _ =>
    obtain ⟨hhead, htail⟩ := List.forall_mem_cons.mp h
    rw [List.map_cons, Text.intercalate_cons, List.flatMap_map] at hspelled
    obtain ⟨a, hfirst, hothers⟩ := spelled_append_iff.mp hspelled
    obtain ⟨tree, hderived, hresolved⟩ := hhead.operand operator start a hfirst
    obtain ⟨trees, hderivedAll, hresolvedAll⟩ :=
      derivesTail_of_spelled (fun part hpart => (htail part hpart).operand operator) hothers
    cases trees with
    | nil => cases hresolvedAll
    | cons second more =>
      refine ⟨_, .chain hderived hderivedAll, ?_⟩
      rw [Operator.join, if_neg (by simp), Expression.resolve_build, Expression.resolveAll,
        hresolved, hresolvedAll]
      rfl

end Writes

end Notation

end MessageGrammar
