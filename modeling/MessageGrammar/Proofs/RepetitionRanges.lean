import MessageGrammar.Proofs.Coverage
import MessageGrammar.Proofs.RepetitionCounts

/-!
# Repetitions by ranges of counts

A range of counts has a lower and an upper limit, which include a count, exclude it or are absent. A
repetition keeps the limits as a least and a greatest count that are both allowed. It reaches exactly
the ends of chains of iterations with a count in the range; the iterations that its search passes
over take no token, and a chain may have them or not. One kind of range is an exception: with 0 as
an upper limit that is excluded it has no count, but there is no number below 0 to be the greatest
count, so that 0 stays and a repetition that may start with 0 derives the empty run.
-/

namespace MessageGrammar

namespace Limit

/-- A count has come up to a lower limit. -/
def Reached : Limit → Nat → Prop
  | .included count, n => count.toNat ≤ n
  | .excluded count, n => count.toNat < n
  | .unlimited, _ => True

/-- A count has not gone beyond an upper limit. -/
def Kept : Limit → Nat → Prop
  | .included count, n => n ≤ count.toNat
  | .excluded count, n => n < count.toNat
  | .unlimited, _ => True

/-- The counts in the range between two limits. -/
def Between (lower upper : Limit) (n : Nat) : Prop :=
  lower.Reached n ∧ upper.Kept n

instance (limit : Limit) (n : Nat) : Decidable (limit.Reached n) :=
  match limit with
  | .included count => inferInstanceAs (Decidable (count.toNat ≤ n))
  | .excluded count => inferInstanceAs (Decidable (count.toNat < n))
  | .unlimited => .isTrue trivial

instance (limit : Limit) (n : Nat) : Decidable (limit.Kept n) :=
  match limit with
  | .included count => inferInstanceAs (Decidable (n ≤ count.toNat))
  | .excluded count => inferInstanceAs (Decidable (n < count.toNat))
  | .unlimited => .isTrue trivial

instance (lower upper : Limit) (n : Nat) : Decidable (lower.Between upper n) :=
  inferInstanceAs (Decidable (_ ∧ _))

/-- A lower limit leaves room for counts in 64 bits: what it excludes is not the last word. -/
def HasRoom (lower : Limit) : Prop :=
  ∀ count, lower = .excluded count → count.toNat < UInt64.size - 1

end Limit

namespace Grammar

variable {lower upper : Limit} {n : Nat}

/-- The least count is the first one that has come up to the lower limit. -/
theorem least_le_iff (h : lower.HasRoom) : (Limit.least lower).toNat ≤ n ↔ lower.Reached n := by
  cases lower with
  | included count => exact Iff.rfl
  | excluded count =>
    have hnext := toNat_add_one (h count rfl)
    rw [Limit.least, hnext]
    exact Nat.succ_le_iff
  | unlimited =>
    have hleast : (Limit.least .unlimited).toNat ≤ n := Nat.zero_le n
    exact iff_of_true hleast trivial

/-- The greatest count is the last one that has not gone beyond the upper limit, unless that limit
excludes even 0. -/
theorem le_greatest_iff (h : upper ≠ .excluded 0) :
    (∀ most ∈ Limit.greatest upper, n ≤ most.toNat) ↔ upper.Kept n := by
  cases upper with
  | included count => simp [Limit.greatest, Limit.Kept]
  | excluded count =>
    have hzero : count ≠ 0 := fun heq => h (congrArg Limit.excluded heq)
    have hpos : 0 < count.toNat := Nat.pos_of_ne_zero fun heq => hzero (UInt64.toNat_inj.mp heq)
    have hone : (1 : UInt64) ≤ count := UInt64.le_iff_toNat_le.mpr hpos
    have hbelow : (count - 1).toNat = count.toNat - 1 := UInt64.toNat_sub_of_le count 1 hone
    simp only [Limit.greatest, if_neg hzero, Option.mem_some_iff, forall_eq', hbelow, Limit.Kept]
    omega
  | unlimited => simp [Limit.greatest, Limit.Kept]

/-- The least and the greatest count have between them the counts of the range, unless its first
count is 0 and 0 is excluded above: then the greatest count would have to be below 0. -/
theorem between_iff (hlower : lower.HasRoom) (hrange : ¬(lower.Reached 0 ∧ upper = .excluded 0)) :
    ((Limit.least lower).toNat ≤ n ∧ ∀ most ∈ Limit.greatest upper, n ≤ most.toNat) ↔
      lower.Between upper n := by
  rw [least_le_iff hlower, Limit.Between]
  by_cases hupper : upper = .excluded 0
  · have hfirst : ¬lower.Reached 0 := fun h => hrange ⟨h, hupper⟩
    rw [hupper]
    constructor
    · rintro ⟨hreached, hgreatest⟩
      have hzero : n = 0 := Nat.le_zero.mp (hgreatest 0 rfl)
      rw [hzero] at hreached
      exact absurd hreached hfirst
    · rintro ⟨-, hkept⟩
      exact absurd hkept (Nat.not_lt_zero n)
  · rw [le_greatest_iff hupper]

/-- A derivation of the grammar leads from a position to another one. -/
def Reaches (grammar : Grammar) (tokens : List Token) (start stop : Nat) : Prop :=
  ∃ items, grammar.Yields tokens start items stop

/-- A grammar without derivations from a position reaches nothing from there. -/
theorem derivationsFrom_eq_nil_of_not_reaches {grammar : Grammar} {tokens : List Token}
    {start : Nat} (h : ∀ stop, ¬grammar.Reaches tokens start stop) :
    (grammar.derivationsFrom tokens start).toList = [] :=
  derivationsFrom_eq_nil_iff.mpr fun items stop hyields => h stop ⟨items, hyields⟩

/-- What is reached is where something leads, with or without marks. -/
theorem reaches_eq_leads (grammar : Grammar) (tokens : List Token) :
    grammar.Reaches tokens = Leads (grammar.Yields tokens) false := by
  funext start stop
  simp only [Reaches, Leads, allowed_false, and_true]

/-- A repetition reaches the ends of all chains of iterations with a count within its bounds. -/
theorem reaches_repetition_iff {inner : Grammar} {min : UInt64} {max : Option UInt64}
    {tokens : List Token} {start stop : Nat} :
    (repetition inner min max).Reaches tokens start stop ↔
      ∃ n, min.toNat ≤ n ∧ (∀ most ∈ max, n ≤ most.toNat) ∧
        Chain (inner.Reaches tokens) n start stop := by
  rw [reaches_eq_leads, reaches_eq_leads]
  exact leads_repetition_iff

variable (grammar : Grammar) (tokens : List Token) (start : Nat)

/-- A repetition over a range reaches the ends of chains with a count in the range. -/
theorem reaches_repeated_iff (hlower : lower.HasRoom)
    (hrange : ¬(lower.Reached 0 ∧ upper = .excluded 0)) {stop : Nat} :
    (grammar.repeated lower upper).Reaches tokens start stop ↔
      ∃ n, lower.Between upper n ∧ Chain (grammar.Reaches tokens) n start stop := by
  rw [repeated, reaches_repetition_iff]
  simp only [← and_assoc, between_iff hlower hrange]

/-- With 0 excluded above, a repetition that needs no iteration derives the empty run and nothing
else. -/
theorem toList_derivationsFrom_repeated_excluded_zero (h : lower.Reached 0) :
    ((grammar.repeated lower (.excluded 0)).derivationsFrom tokens start).toList =
      [⟨[], start⟩] := by
  have hleast : (Limit.least lower).toNat = 0 := by
    cases lower with
    | included count => exact Nat.le_zero.mp h
    | excluded count => exact absurd h (Nat.not_lt_zero _)
    | unlimited => rfl
  have hgreatest : (Limit.greatest (.excluded 0)).map UInt64.toNat = some 0 := rfl
  rw [repeated, toList_derivationsFrom_repetition, hleast, hgreatest, iterated_of_full]

/-- A repetition over a range admits exactly the counts in the range: it reaches a stop if and only
if a chain with such a count leads there, and without any count it derives nothing. The exceptions
are the ranges with 0 as their first count and 0 excluded above: they have no count, and the empty
run is derived. -/
theorem repeated_admits_counts_in_range (hlower : lower.HasRoom) :
    (¬(lower.Reached 0 ∧ upper = .excluded 0) →
      (∀ stop, (grammar.repeated lower upper).Reaches tokens start stop ↔
        ∃ n, lower.Between upper n ∧ Chain (grammar.Reaches tokens) n start stop) ∧
      ((∀ n, ¬lower.Between upper n) →
        ((grammar.repeated lower upper).derivationsFrom tokens start).toList = [])) ∧
    (lower.Reached 0 ∧ upper = .excluded 0 →
      ((grammar.repeated lower upper).derivationsFrom tokens start).toList = [⟨[], start⟩]) := by
  constructor
  · intro hrange
    have hreaches : ∀ stop, (grammar.repeated lower upper).Reaches tokens start stop ↔
        ∃ n, lower.Between upper n ∧ Chain (grammar.Reaches tokens) n start stop :=
      fun _ => reaches_repeated_iff grammar tokens start hlower hrange
    refine ⟨hreaches, ?_⟩
    intro hempty
    apply derivationsFrom_eq_nil_of_not_reaches
    intro stop h
    obtain ⟨n, hbetween, -⟩ := (hreaches stop).mp h
    exact hempty n hbetween
  · rintro ⟨hfirst, rfl⟩
    exact toList_derivationsFrom_repeated_excluded_zero grammar tokens start hfirst

/-- More than no word and at most two reach the end of two words. -/
theorem repeated_admits_two_words :
    (Limit.excluded 0).HasRoom ∧ ¬((Limit.excluded 0).Reached 0 ∧ Limit.included 2 = .excluded 0) ∧
      (word.repeated (.excluded 0) (.included 2)).Reaches [.word "Ann", .word "Lee"] 0 2 := by
  have hroom : (Limit.excluded 0).HasRoom := by
    intro count hcount
    rw [← Limit.excluded.inj hcount]
    decide
  have hrange : ¬((Limit.excluded 0).Reached 0 ∧ Limit.included 2 = .excluded 0) := by decide
  have hword : ∀ t : Token, t.kind = .word → ∀ tokens start, tokens[start]? = some t →
      word.Reaches tokens start (start + 1) := by
    intro t hkind tokens start htoken
    have haccepts : TokenClass.word.accepts t.kind = true := by simp [hkind, TokenClass.accepts]
    exact ⟨_, yields_token_iff.mpr ⟨t, htoken, haccepts, rfl, rfl⟩⟩
  have hchain : Chain (word.Reaches [.word "Ann", .word "Lee"]) 2 0 2 :=
    .more (hword _ rfl _ 0 rfl) (.more (hword _ rfl _ 1 rfl) (.none 2))
  have hadmits := (repeated_admits_counts_in_range word [.word "Ann", .word "Lee"] 0 hroom).1 hrange
  exact ⟨hroom, hrange, (hadmits.1 2).mpr ⟨2, by decide, hchain⟩⟩

/-- No count is below 0, but the repetition over these counts reaches the place where it starts. -/
theorem reaches_without_count :
    ¬((word.repeated .unlimited (.excluded 0)).Reaches [] 0 0 ↔
      ∃ n, Limit.Between .unlimited (.excluded 0) n ∧ Chain (word.Reaches []) n 0 0) := by
  intro h
  have hfirst : Limit.unlimited.Reached 0 := trivial
  have hempty := toList_derivationsFrom_repeated_excluded_zero word [] 0 hfirst
  have hreaches : (word.repeated .unlimited (.excluded 0)).Reaches [] 0 0 := by
    refine ⟨[], ?_⟩
    rw [Yields, hempty]
    exact List.mem_singleton_self _
  obtain ⟨n, hbetween, -⟩ := h.mp hreaches
  exact Nat.not_lt_zero n hbetween.2

end Grammar

end MessageGrammar
