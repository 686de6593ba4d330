import MessageGrammar.Token

/-!
# Grammars over tokens

A grammar is a tree. Its constructors say which runs of tokens it matches; the operators join
grammars and keep chains of one operator flat: `&&&` is a sequence, `|||` an alternation and `%` a
choice by priority, whose right side counts only where the left side matches nothing.
-/

namespace MessageGrammar

/-- A description of runs of tokens. -/
inductive Grammar where
  /-- One token of a class. -/
  | token (kinds : TokenClass)
  /-- What the inner grammar matches, without its items. -/
  | drop (inner : Grammar)
  /-- All parts in order. -/
  | seq (parts : List Grammar)
  /-- Any of the alternatives. -/
  | alt (alternatives : List Grammar)
  /-- The earliest alternative that matches anything. -/
  | first (alternatives : List Grammar)
  /-- The inner grammar again and again, at least `min` and, if there is a `max`, at most `max`
  times. -/
  | repetition (inner : Grammar) (min : UInt64) (max : Option UInt64)
  /-- Any run of tokens, as a mark that the labelled field is missing. -/
  | missing (label : String)
  /-- The tokens of the inner grammar as one named field. -/
  | tag (name : String) (inner : Grammar)
  deriving Inhabited

/-- One end of a range of repetition counts. -/
inductive Limit where
  /-- The count itself is allowed. -/
  | included (count : UInt64)
  /-- The count itself is not allowed. -/
  | excluded (count : UInt64)
  /-- No limit on this side. -/
  | unlimited
  deriving DecidableEq, Repr

/-- A count that is not the last word has the next number after it. -/
theorem toNat_add_one {count : UInt64} (h : count.toNat < UInt64.size - 1) :
    (count + 1).toNat = count.toNat + 1 := by
  have hword : UInt64.size = 2 ^ 64 := rfl
  rw [UInt64.toNat_add, UInt64.toNat_one, Nat.mod_eq_of_lt (by omega)]

namespace Grammar

/-- Induction on trees: what holds of a grammar whenever it holds of its parts holds of all
grammars. -/
@[induction_eliminator]
theorem induct {motive : Grammar → Prop}
    (token : ∀ kinds, motive (.token kinds))
    (drop : ∀ inner, motive inner → motive (.drop inner))
    (seq : ∀ parts, (∀ part ∈ parts, motive part) → motive (.seq parts))
    (alt : ∀ alternatives, (∀ alternative ∈ alternatives, motive alternative) →
      motive (.alt alternatives))
    (first : ∀ alternatives, (∀ alternative ∈ alternatives, motive alternative) →
      motive (.first alternatives))
    (repetition : ∀ inner min max, motive inner → motive (.repetition inner min max))
    (missing : ∀ label, motive (.missing label))
    (tag : ∀ name inner, motive inner → motive (.tag name inner)) (grammar : Grammar) :
    motive grammar :=
  @Grammar.rec motive (fun parts => ∀ part ∈ parts, motive part)
    token drop seq alt first repetition missing tag
    (fun _ h => absurd h List.not_mem_nil)
    (fun _ _ head tail => List.forall_mem_cons.mpr ⟨head, tail⟩) grammar

mutual

/-- Whether two trees are the same, part by part. -/
def same : Grammar → Grammar → Bool
  | token a, token b => a == b
  | drop a, drop b => same a b
  | seq as, seq bs => sameAll as bs
  | alt as, alt bs => sameAll as bs
  | first as, first bs => sameAll as bs
  | repetition a min max, repetition b min' max' => min == min' && max == max' && same a b
  | missing a, missing b => a == b
  | tag name a, tag name' b => name == name' && same a b
  | _, _ => false

/-- Whether two lists of trees are the same. -/
def sameAll : List Grammar → List Grammar → Bool
  | [], [] => true
  | a :: as, b :: bs => same a b && sameAll as bs
  | _, _ => false

end

mutual

theorem same_iff : (a b : Grammar) → (same a b = true ↔ a = b)
  | token _, b => by cases b <;> simp [same]
  | drop a, b => by cases b <;> simp [same, same_iff a]
  | seq as, b => by cases b <;> simp [same, sameAll_iff as]
  | alt as, b => by cases b <;> simp [same, sameAll_iff as]
  | first as, b => by cases b <;> simp [same, sameAll_iff as]
  | repetition a _ _, b => by cases b <;> simp [same, same_iff a, and_comm]
  | missing _, b => by cases b <;> simp [same]
  | tag _ a, b => by cases b <;> simp [same, same_iff a]

theorem sameAll_iff : (as bs : List Grammar) → (sameAll as bs = true ↔ as = bs)
  | [], bs => by cases bs <;> simp [sameAll]
  | a :: as, bs => by cases bs <;> simp [sameAll, same_iff a, sameAll_iff as]

end

instance : DecidableEq Grammar := fun a b =>
  decidable_of_iff (same a b = true) (same_iff a b)

/-- A word. -/
def word : Grammar := token .word

/-- A whole number. -/
def integer : Grammar := token .integer

/-- A decimal number. -/
def float : Grammar := token .float

/-- A whole or decimal number. -/
def number : Grammar := token .number

/-- Any token. -/
def any : Grammar := token .any

/-- A delimiter, which never counts among the items. -/
def delimiter : Grammar := drop (token .delimiter)

/-- Least count of a range; counts are 64-bit words. -/
def Limit.least : Limit → UInt64
  | .included count => count
  | .excluded count => count + 1
  | .unlimited => 0

/-- Greatest count of a range, if there is one; below zero it stays at zero. -/
def Limit.greatest : Limit → Option UInt64
  | .included count => some count
  | .excluded count => some (if count = 0 then 0 else count - 1)
  | .unlimited => none

/-- The grammar repeated as often as a range of counts allows. -/
def repeated (grammar : Grammar) (lower upper : Limit) : Grammar :=
  repetition grammar (Limit.least lower) (Limit.greatest upper)

/-- The grammar repeated a fixed number of times. -/
def times (grammar : Grammar) (count : UInt64) : Grammar :=
  grammar.repeated (.included count) (.included count)

/-- The grammar once or not at all. -/
def optional (grammar : Grammar) : Grammar :=
  grammar.repeated (.included 0) (.included 1)

/-- The grammar at least once. -/
def many (grammar : Grammar) : Grammar :=
  grammar.repeated (.included 1) .unlimited

/-- The parts of a sequence, else the grammar itself. -/
def seqParts : Grammar → List Grammar
  | seq parts => parts
  | grammar => [grammar]

/-- The alternatives of an alternation, else the grammar itself. -/
def altParts : Grammar → List Grammar
  | alt alternatives => alternatives
  | grammar => [grammar]

/-- The alternatives of a priority choice, else the grammar itself. -/
def firstParts : Grammar → List Grammar
  | first alternatives => alternatives
  | grammar => [grammar]

instance : AndOp Grammar where
  and a b := seq (a.seqParts ++ b.seqParts)

instance : OrOp Grammar where
  or a b := alt (a.altParts ++ b.altParts)

instance : Mod Grammar where
  mod a b := first (a.firstParts ++ b.firstParts)

/-- The grammar, or a mark for the labelled field where it matches nothing. -/
def orMissing (grammar : Grammar) (label : String) : Grammar :=
  grammar % missing label

/-- The tokens of the grammar as one named field. -/
def tagged (grammar : Grammar) (name : String) : Grammar :=
  tag name grammar

end Grammar

end MessageGrammar
