import Mathlib.Logic.Relation
import MessageGrammar.Proofs.WrittenGrammars

/-!
# The first offender

A text that is read as an expression denotes a grammar unless one of its names belongs to no matcher
or some of its bounds admit no count. Resolution goes through the expression from left to right, an
expression before its own bounds, which is also how these offenders follow one another in the text;
so the error it ends with points at the one that starts first, and at exactly its characters.
-/

namespace MessageGrammar.Notation

/-- Bounds that admit no count: empty ones, or an upper limit that is not above the lower one, which
is zero where it is left out. -/
def Bounds.Void (bounds : Bounds) : Prop :=
  bounds.low = none ∧ bounds.high = none ∨
    ∃ high, bounds.high = some (some high) ∧ high ≤ bounds.low.getD 0

/-- Bounds with both limits admit no count if the upper one is not above the lower one. -/
theorem Bounds.void_iff_le {low : Option UInt64} {high : UInt64} {span : Span} :
    Bounds.Void ⟨low, some (some high), span⟩ ↔ high ≤ low.getD 0 := by
  constructor
  · rintro (⟨-, hhigh⟩ | ⟨limit, hlimit, hle⟩)
    · cases hhigh
    · cases hlimit
      exact hle
  · exact fun hle => .inr ⟨high, rfl, hle⟩

/-- Bounds without an upper limit admit a count. -/
theorem Bounds.not_void_of_unlimited {low : Option UInt64} {span : Span} :
    ¬ Bounds.Void ⟨low, some none, span⟩ := by
  rintro (⟨-, hhigh⟩ | ⟨limit, hlimit, -⟩)
  · cases hhigh
  · cases hlimit

/-- A single count is admitted. -/
theorem Bounds.not_void_of_count {count : UInt64} {span : Span} :
    ¬ Bounds.Void ⟨some count, none, span⟩ := by
  rintro (⟨hlow, -⟩ | ⟨limit, hlimit, -⟩)
  · cases hlow
  · cases hlimit

instance : DecidablePred Bounds.Void
  | ⟨none, none, _⟩ => isTrue (.inl ⟨rfl, rfl⟩)
  | ⟨some _, none, _⟩ => isFalse Bounds.not_void_of_count
  | ⟨_, some none, _⟩ => isFalse Bounds.not_void_of_unlimited
  | ⟨_, some (some _), _⟩ => decidable_of_iff' _ Bounds.void_iff_le

/-- Errors are looked for in order, and the first one is reported. -/
def Reports {α : Type} (result : Except NotationError α) (errors : List NotationError) : Prop :=
  ∀ e, result = .error e ↔ errors.head? = some e

section Reports

variable {α β : Type} {result : Except NotationError α} {errors others : List NotationError}

/-- A result has no errors. -/
theorem reports_ok (a : α) : Reports (.ok a) [] :=
  fun _ => ⟨nofun, nofun⟩

/-- An error has itself. -/
theorem reports_error (e : NotationError) : Reports (.error e : Except NotationError α) [e] := by
  intro other
  rw [List.head?_cons, Option.some_inj, Except.error.injEq]

/-- What is made of a result does not change the errors. -/
theorem Reports.map (h : Reports result errors) (f : α → β) : Reports (result.map f) errors := by
  intro e
  rw [← h e]
  cases result with
  | error e' => rw [Except.map, Except.error.injEq, Except.error.injEq]
  | ok a => exact ⟨nofun, nofun⟩

/-- What comes behind a result is asked only if there are no errors before. -/
theorem Reports.bind (h : Reports result errors) {next : α → Except NotationError β}
    (hnext : ∀ a, Reports (next a) others) : Reports (result.bind next) (errors ++ others) := by
  intro e
  cases result with
  | error first =>
    obtain ⟨more, hmore⟩ := List.head?_eq_some_iff.mp ((h first).mp rfl)
    rw [hmore, List.cons_append, List.head?_cons, Option.some_inj, Except.bind, Except.error.injEq]
  | ok a =>
    have hnone : errors = [] := by
      cases errors with
      | nil => rfl
      | cons first more => exact nomatch (h first).mpr rfl
    rw [hnone, List.nil_append]
    exact hnext a e

end Reports

/-- Bounds report themselves if they admit no count, and nothing else. -/
theorem Bounds.reports_apply (bounds : Bounds) (grammar : Grammar) :
    Reports (bounds.apply grammar) (if bounds.Void then [.emptyBounds bounds.span] else []) := by
  obtain ⟨low, high, span⟩ := bounds
  rcases high with _ | _ | high
  · cases low with
    | none => exact reports_error _
    | some count => exact reports_ok _
  · rw [if_neg not_void_of_unlimited]
    cases low <;> exact reports_ok _
  · have happly : Bounds.apply ⟨low, some (some high), span⟩ grammar =
        if high ≤ low.getD 0 then .error (.emptyBounds span)
        else .ok (grammar.repeated (.included (low.getD 0)) (.excluded high)) := by
      cases low <;> rfl
    rw [happly]
    by_cases h : high ≤ low.getD 0
    · rw [if_pos h, if_pos (void_iff_le.mpr h)]
      exact reports_error _
    · rw [if_neg h, if_neg (mt void_iff_le.mp h)]
      exact reports_ok _

/-- A name belongs to no matcher. -/
def IsUnknown (text : String) : Prop :=
  ∀ kinds : TokenClass, kinds.name ≠ text

/-- A matcher is found by every name that belongs to one. -/
theorem matcher?_eq_none_iff {text : String} : matcher? text = none ↔ IsUnknown text := by
  rw [matcher?, Option.map_eq_none_iff]
  constructor
  · rintro h kinds rfl
    rw [TokenClass.ofName?_name] at h
    cases h
  · intro h
    rw [Option.eq_none_iff_forall_ne_some]
    exact fun kinds hkinds => h kinds (TokenClass.name_of_ofName? hkinds)

namespace Expression

/-- The expressions directly inside an expression. -/
def parts : Expression → List Expression
  | name _ _ | missing _ => []
  | optional inner | drop inner | tag _ inner | bounded inner _ => [inner]
  | seq parts | alt parts | first parts => parts

/-- An expression is this one or stands inside it. -/
def Contains : Expression → Expression → Prop :=
  Relation.ReflTransGen fun tree part => part ∈ tree.parts

/-- What an expression, by itself, lets go wrong: a name that belongs to no matcher, or bounds that
admit no count. -/
inductive Offends : Expression → NotationError → Prop
  /-- The name has no matcher. -/
  | name {text : String} {span : Span} (unknown : IsUnknown text) :
      Offends (.name text span) (.unknownMatcher text span)
  /-- The bounds admit no count. -/
  | bounds {inner : Expression} {bounds : Bounds} (void : bounds.Void) :
      Offends (.bounded inner bounds) (.emptyBounds bounds.span)

/-- An expression is an offender or has one inside it. -/
def Harbours (tree : Expression) (e : NotationError) : Prop :=
  ∃ node, tree.Contains node ∧ node.Offends e

/-- What is wrong somewhere is wrong with the expression itself or inside one of its parts. -/
theorem harbours_iff {tree : Expression} {e : NotationError} :
    tree.Harbours e ↔ tree.Offends e ∨ ∃ part ∈ tree.parts, part.Harbours e := by
  constructor
  · rintro ⟨node, hnode, hoffends⟩
    rcases Relation.ReflTransGen.cases_head hnode with rfl | ⟨part, hpart, hnode⟩
    · exact .inl hoffends
    · exact .inr ⟨part, hpart, node, hnode, hoffends⟩
  · rintro (hoffends | ⟨part, hpart, node, hnode, hoffends⟩)
    · exact ⟨tree, .refl, hoffends⟩
    · exact ⟨node, .head hpart hnode, hoffends⟩

mutual

/-- What holds of an expression as soon as it holds of its parts holds of all expressions. -/
theorem forall_of_parts {motive : Expression → Prop}
    (step : ∀ tree, (∀ part ∈ tree.parts, motive part) → motive tree) : ∀ tree, motive tree
  | name _ _ | missing _ => step _ fun _ hpart => absurd hpart List.not_mem_nil
  | optional inner | drop inner | tag _ inner | bounded inner _ =>
    step _ (List.forall_mem_singleton.mpr (forall_of_parts step inner))
  | seq parts | alt parts | first parts => step _ (forall_mem_of_parts step parts)

/-- It holds of all expressions of a list, too. -/
theorem forall_mem_of_parts {motive : Expression → Prop}
    (step : ∀ tree, (∀ part ∈ tree.parts, motive part) → motive tree) :
    ∀ trees : List Expression, ∀ tree ∈ trees, motive tree
  | [] => fun _ htree => absurd htree List.not_mem_nil
  | tree :: others =>
    List.forall_mem_cons.mpr ⟨forall_of_parts step tree, forall_mem_of_parts step others⟩

end

/-- The errors of an expression apart from those of its parts. -/
def ownErrors : Expression → List NotationError
  | name text span => if (matcher? text).isNone then [.unknownMatcher text span] else []
  | bounded _ bounds => if bounds.Void then [.emptyBounds bounds.span] else []
  | _ => []

/-- An expression has an error of its own exactly if it is an offender. -/
theorem mem_ownErrors_iff {tree : Expression} {e : NotationError} :
    e ∈ tree.ownErrors ↔ tree.Offends e := by
  constructor
  · intro h
    cases tree with
    | name text span =>
      obtain ⟨hunknown, he⟩ := List.mem_ite_nil_right.mp h
      rw [Option.isNone_iff_eq_none, matcher?_eq_none_iff] at hunknown
      rw [List.mem_singleton.mp he]
      exact .name hunknown
    | bounded inner bounds =>
      obtain ⟨hvoid, he⟩ := List.mem_ite_nil_right.mp h
      rw [List.mem_singleton.mp he]
      exact .bounds hvoid
    | _ => exact absurd h List.not_mem_nil
  · intro h
    cases h with
    | name hunknown =>
      refine List.mem_ite_nil_right.mpr ⟨?_, List.mem_singleton_self _⟩
      rw [Option.isNone_iff_eq_none, matcher?_eq_none_iff]
      exact hunknown
    | bounds hvoid => exact List.mem_ite_nil_right.mpr ⟨hvoid, List.mem_singleton_self _⟩

mutual

/-- The errors of an expression in the order in which they are looked for. -/
def errors : Expression → List NotationError
  | name text span => ownErrors (name text span)
  | missing _ => []
  | optional inner | drop inner | tag _ inner => inner.errors
  | bounded inner bounds => inner.errors ++ ownErrors (bounded inner bounds)
  | seq parts | alt parts | first parts => errorsAll parts

/-- The errors of some expressions, one expression after the other. -/
def errorsAll : List Expression → List NotationError
  | [] => []
  | tree :: others => tree.errors ++ errorsAll others

end

/-- The errors of some expressions are those of each of them. -/
theorem errorsAll_eq_flatMap (trees : List Expression) : errorsAll trees = trees.flatMap errors := by
  induction trees with
  | nil => rfl
  | cons tree others ih => rw [errorsAll, ih, List.flatMap_cons]

/-- The errors of the parts come before those of the expression itself. -/
theorem errors_eq (tree : Expression) : tree.errors = tree.parts.flatMap errors ++ tree.ownErrors := by
  cases tree with
  | name text span | missing label => rfl
  | optional inner | drop inner | tag field inner | bounded inner bounds =>
    simp [errors, parts, ownErrors]
  | seq trees | alt trees | first trees => simp [errors, errorsAll_eq_flatMap, parts, ownErrors]

/-- The errors of an expression are those of the offenders in it. -/
theorem mem_errors_iff {e : NotationError} (tree : Expression) :
    e ∈ tree.errors ↔ tree.Harbours e := by
  induction tree using forall_of_parts with
  | step tree ih =>
    rw [errors_eq, List.mem_append, List.mem_flatMap, mem_ownErrors_iff, harbours_iff, or_comm]
    exact or_congr_right (exists_congr fun part => and_congr_right (ih part))

mutual

/-- Resolution reports the first of the errors. -/
theorem reports_resolve : (tree : Expression) → Reports tree.resolve tree.errors
  | name text span => by
    rw [resolve, errors, ownErrors]
    cases matcher? text with
    | none => exact reports_error _
    | some grammar => exact reports_ok grammar
  | missing label => reports_ok (Grammar.missing label)
  | optional inner => (reports_resolve inner).map _
  | drop inner => (reports_resolve inner).map _
  | tag field inner => (reports_resolve inner).map _
  | bounded inner bounds => (reports_resolve inner).bind bounds.reports_apply
  | seq parts => (reports_resolveAll parts).map _
  | alt alternatives => (reports_resolveAll alternatives).map _
  | first alternatives => (reports_resolveAll alternatives).map _

/-- Resolution of some expressions reports the first error of all. -/
theorem reports_resolveAll : (trees : List Expression) → Reports (resolveAll trees) (errorsAll trees)
  | [] => reports_ok []
  | tree :: others => (reports_resolve tree).bind fun _ => (reports_resolveAll others).map _

end

end Expression

/-- The error points at an offender between two places: at the characters of a name that belongs to
no matcher, or at bounds that admit no count, brackets included. -/
inductive PointsAt : NotationError → Stretch
  /-- The characters of the name are there. -/
  | name {text : String} {start stop : Cursor} (isName : IsName text.toList)
      (here : Spelled text.toList start stop) (unknown : IsUnknown text) :
      PointsAt (.unknownMatcher text ⟨start.position, stop.position⟩) start stop
  /-- The bounds are there. -/
  | bounds {bounds : Bounds} {start stop : Cursor} (here : Range bounds start stop)
      (void : bounds.Void) :
      PointsAt (.emptyBounds ⟨start.position, stop.position⟩) start stop

/-- Errors point at offenders between two places, one behind the other. -/
inductive Arranged : List NotationError → Stretch
  /-- No offenders. -/
  | nil {start stop : Cursor} (h : Forward start stop) : Arranged [] start stop
  /-- An offender and the ones behind it. -/
  | cons {e : NotationError} {others : List NotationError} {start a b stop : Cursor}
      (before : Forward start a) (here : PointsAt e a b) (behind : Arranged others b stop) :
      Arranged (e :: others) start stop

section Arranged

variable {errors others : List NotationError} {e : NotationError} {start middle stop : Cursor}

/-- No position is lost going forward. -/
theorem Forward.position_le (h : Forward start stop) : start.position ≤ stop.position := by
  obtain ⟨text, htext⟩ := h
  exact htext.position ▸ Nat.le_add_right _ _

/-- Something that begins with a character takes at least this one. -/
theorem Spelled.position_lt {c : Char} {text : List Char} (h : Spelled (c :: text) start stop) :
    start.position < stop.position := by
  have hposition := h.position
  rw [List.length_cons] at hposition
  omega

/-- The error stands where the offender is, which has at least one character. -/
theorem PointsAt.span_eq (h : PointsAt e start stop) :
    e.span = ⟨start.position, stop.position⟩ ∧ start.position < stop.position := by
  cases h with
  | name isName here _ =>
    obtain ⟨c, more, htext, -⟩ := isName
    rw [htext] at here
    exact ⟨rfl, here.position_lt⟩
  | bounds here _ =>
    obtain ⟨opened, between, closed, hopened, hlow, hhigh, hclosed, -⟩ := here
    have hforward := (hlow.forward fun hpadded => hpadded.forward Count.forward).trans
      ((hhigh.forward Upper.forward).trans hclosed.forward)
    exact ⟨rfl, Nat.lt_of_lt_of_le hopened.position_lt hforward.position_le⟩

/-- An offender does not go back. -/
theorem PointsAt.forward (h : PointsAt e start stop) : Forward start stop := by
  cases h with
  | name _ here _ => exact here.forward
  | bounds here _ => exact here.forward

/-- Arranged errors do not go back. -/
theorem Arranged.forward (h : Arranged errors start stop) : Forward start stop := by
  induction h with
  | nil h => exact h
  | cons before here _ ih => exact before.trans (here.forward.trans ih)

/-- The first offender may be further on. -/
theorem Arranged.widen (hbefore : Forward start middle) (h : Arranged errors middle stop) :
    Arranged errors start stop := by
  cases h with
  | nil h => exact .nil (hbefore.trans h)
  | cons before here behind => exact .cons (hbefore.trans before) here behind

/-- The last offender may be further back. -/
theorem Arranged.narrow (h : Arranged errors start middle) (hafter : Forward middle stop) :
    Arranged errors start stop := by
  induction h with
  | nil h => exact .nil (h.trans hafter)
  | cons before here _ ih => exact .cons before here (ih hafter)

/-- Offenders may stand inside something. -/
theorem Arranged.enclosed {opened closed : Cursor} (h : Arranged errors opened closed)
    (hbefore : Forward start opened) (hafter : Forward closed stop) :
    Arranged errors start stop :=
  (h.narrow hafter).widen hbefore

/-- Offenders may stand behind others. -/
theorem Arranged.append (h : Arranged errors start middle) (h' : Arranged others middle stop) :
    Arranged (errors ++ others) start stop := by
  induction h with
  | nil h => exact h'.widen h
  | cons before here _ ih => exact .cons before here (ih h')

/-- An error that is there under a condition is arranged. -/
theorem arranged_ite {condition : Prop} [Decidable condition] (h : Forward start stop)
    (hhere : condition → PointsAt e start stop) :
    Arranged (if condition then [e] else []) start stop := by
  split
  next hcondition => exact .cons (.refl start) (hhere hcondition) (.nil (.refl stop))
  next => exact .nil h

/-- Every arranged error points at an offender. -/
theorem Arranged.pointsAt (h : Arranged errors start stop) (he : e ∈ errors) :
    ∃ a b, Forward start a ∧ PointsAt e a b ∧ Forward b stop := by
  induction h with
  | nil => exact absurd he List.not_mem_nil
  | cons before here behind ih =>
    rcases List.mem_cons.mp he with rfl | he
    · exact ⟨_, _, before, here, behind.forward⟩
    · obtain ⟨a, b, hbefore, hhere, hbehind⟩ := ih he
      exact ⟨a, b, before.trans (here.forward.trans hbefore), hhere, hbehind⟩

/-- The first of arranged errors starts before the others. -/
theorem Arranged.start_lt (h : Arranged (e :: others) start stop) {other : NotationError}
    (hother : other ∈ others) : e.span.start < other.span.start := by
  cases h with
  | cons _ here behind =>
    obtain ⟨hspan, hlt⟩ := here.span_eq
    obtain ⟨a, b, hbefore, hthere, -⟩ := behind.pointsAt hother
    rw [hspan, hthere.span_eq.1]
    exact Nat.lt_of_lt_of_le hlt hbefore.position_le

/-- The first of arranged errors is the one that starts before all others. -/
theorem Arranged.head?_eq_some_iff (h : Arranged errors start stop) :
    errors.head? = some e ↔
      e ∈ errors ∧ ∀ other ∈ errors, other ≠ e → e.span.start < other.span.start := by
  cases errors with
  | nil => exact ⟨nofun, fun he => absurd he.1 List.not_mem_nil⟩
  | cons first others =>
    rw [List.head?_cons, Option.some_inj]
    constructor
    · rintro rfl
      refine ⟨List.mem_cons_self, fun other hother hne => ?_⟩
      exact h.start_lt ((List.mem_cons.mp hother).resolve_left hne)
    · rintro ⟨he, hleast⟩
      by_contra hne
      have hbefore := hleast first List.mem_cons_self hne
      have hbehind := h.start_lt ((List.mem_cons.mp he).resolve_left (Ne.symm hne))
      omega

end Arranged

/-- Bounds know where they stand. -/
theorem Range.span_eq {bounds : Bounds} {start stop : Cursor} (h : Range bounds start stop) :
    bounds.span = ⟨start.position, stop.position⟩ := by
  obtain ⟨_, _, _, _, _, _, _, hspan⟩ := h
  exact hspan

/-- The errors of a chain are those of its elements. -/
theorem Operator.errors_join (operator : Operator) (head : Expression) (tail : List Expression) :
    (operator.join head tail).errors = head.errors ++ Expression.errorsAll tail := by
  cases tail with
  | nil => exact (List.append_nil _).symm
  | cons next others => cases operator <;> rfl

mutual

/-- The offenders in an expression stand where it does, one behind the other. -/
theorem Derives.arranged {layer : Layer} {tree : Expression} {start stop : Cursor} :
    Derives layer tree start stop → Arranged tree.errors start stop
  | .name isName here => by
    refine arranged_ite here.forward fun hunknown => .name ?_ ?_ ?_
    · rwa [String.toList_ofList]
    · rwa [String.toList_ofList]
    · exact matcher?_eq_none_iff.mp (Option.isNone_iff_eq_none.mp hunknown)
  | .missing modifier opened argument closed =>
    .nil (modifier.forward.trans (opened.forward.trans
      ((argument.forward Literal.forward).trans closed.forward)))
  | .optional modifier opened argument closed =>
    (argument.arranged.enclosed (modifier.forward.trans opened.forward) closed.forward)
  | .drop modifier opened argument closed =>
    argument.arranged.enclosed (modifier.forward.trans opened.forward) closed.forward
  | .tag modifier opened label comma argument closed =>
    argument.arranged.enclosed (modifier.forward.trans (opened.forward.trans
      ((label.forward Literal.forward).trans comma.forward))) closed.forward
  | .group opened content closed => content.arranged.enclosed opened.forward closed.forward
  | .atom before content after => content.arranged.enclosed before.forward after.forward
  | .plain content => content.arranged
  | .bounded content range => by
    obtain ⟨opened, closed, hbefore, hrange, hafter⟩ := range
    have hspan := hrange.span_eq
    refine content.arranged.append (Arranged.enclosed ?_ hbefore.forward hafter.forward)
    refine arranged_ite hrange.forward fun hvoid => ?_
    rw [hspan]
    exact .bounds hrange hvoid
  | .chain first others => by
    rw [Operator.errors_join]
    exact first.arranged.append others.arranged

/-- The offenders in the elements of a chain stand where they do, one behind the other. -/
theorem DerivesTail.arranged {operator : Operator} {tail : List Expression}
    {start stop : Cursor} :
    DerivesTail operator tail start stop → Arranged (Expression.errorsAll tail) start stop
  | .nil place => .nil (.refl place)
  | .cons symbol next others =>
    (next.arranged.widen symbol.forward).append others.arranged

end

/-- A name is the expression of its characters. -/
theorem derives_name {text : String} {start stop : Cursor} (hname : IsName text.toList)
    (hhere : Spelled text.toList start stop) :
    Derives .atom (.name text ⟨start.position, stop.position⟩) start stop := by
  have hderived := Derives.name hname hhere
  rw [String.ofList_toList] at hderived
  exact .atom (.refl start) hderived (.refl stop)

/-- One element is a chain. -/
theorem Derives.single (operator : Operator) {tree : Expression} {start stop : Cursor}
    (h : Derives operator.operand tree start stop) : Derives (.chain operator) tree start stop :=
  .chain h (.nil stop)

namespace Expression

/-- A text that is read as an expression denotes no grammar exactly if it has a name that belongs to
no matcher or bounds that admit no count. The error is that of the one among these offenders that
starts before all others, and each offender stands in the text where its error says. -/
theorem compile_eq_error_iff_first_offender {source : String} {tree : Expression}
    (h : ofText source.toList = .ok tree) :
    ((∃ e, Grammar.compile source = .error e) ↔ ∃ e, tree.Harbours e) ∧
      (∀ e, Grammar.compile source = .error e ↔
        tree.Harbours e ∧ ∀ other, tree.Harbours other → other ≠ e →
          e.span.start < other.span.start) ∧
      ∀ e, tree.Harbours e → ∃ a b, Forward ⟨0, source.toList⟩ a ∧ PointsAt e a b ∧
        Forward b ⟨source.toList.length, []⟩ := by
  have hcompile : Reports (Grammar.compile source) tree.errors := by
    rw [Grammar.compile, h]
    exact reports_resolve tree
  have harranged := (denotes_of_ofText h).arranged
  have hfirst : ∀ e, Grammar.compile source = .error e ↔
      tree.Harbours e ∧ ∀ other, tree.Harbours other → other ≠ e →
        e.span.start < other.span.start := by
    intro e
    rw [hcompile e]
    simp only [← mem_errors_iff]
    exact harranged.head?_eq_some_iff
  refine ⟨⟨?_, ?_⟩, hfirst, ?_⟩
  · rintro ⟨e, he⟩
    exact ⟨e, ((hfirst e).mp he).1⟩
  · rintro ⟨e, he⟩
    obtain ⟨first, hhead⟩ := Option.ne_none_iff_exists'.mp
      (mt List.head?_eq_none_iff.mp (List.ne_nil_of_mem ((mem_errors_iff tree).mpr he)))
    exact ⟨first, (hcompile first).mpr hhead⟩
  · exact fun e he => harranged.pointsAt ((mem_errors_iff tree).mpr he)

/-- Of an unknown name, the empty bounds behind it and another unknown name, the first is reported. -/
theorem repeated_name_reported_before_bounds :
    ofText "Phrase[] & Clause".toList =
        .ok (seq [bounded (name "Phrase" ⟨0, 6⟩) ⟨none, none, ⟨6, 8⟩⟩, name "Clause" ⟨11, 17⟩]) ∧
      Grammar.compile "Phrase[] & Clause" = .error (.unknownMatcher "Phrase" ⟨0, 6⟩) := by
  let place (n : Nat) : Cursor := ⟨n, "Phrase[] & Clause".toList.drop n⟩
  have hfirst : Spelled "Phrase".toList (place 0) (place 6) := ⟨by decide, rfl⟩
  have hlast : Spelled "Clause".toList (place 11) (place 17) := ⟨by decide, rfl⟩
  have hphrase : Derives .atom (name "Phrase" ⟨0, 6⟩) (place 0) (place 6) :=
    derives_name (by decide) hfirst
  have hbounds : Range ⟨none, none, ⟨6, 8⟩⟩ (place 6) (place 8) :=
    ⟨place 7, place 7, place 7, ⟨by decide, rfl⟩, .absent _, .absent _, ⟨by decide, rfl⟩, rfl⟩
  have hsymbol : Mark '&' (place 8) (place 11) := .of_spaces ⟨by decide, rfl⟩
  have hclause : Derives .atom (name "Clause" ⟨11, 17⟩) (place 11) (place 17) :=
    derives_name (by decide) hlast
  have htail : DerivesTail .sequence [name "Clause" ⟨11, 17⟩] (place 8) (place 17) :=
    .cons hsymbol (.single .priority (.plain hclause)) (.nil _)
  have hhead : Derives Operator.sequence.operand
      (bounded (name "Phrase" ⟨0, 6⟩) ⟨none, none, ⟨6, 8⟩⟩) (place 0) (place 8) :=
    .single .priority (.bounded hphrase (.of_bare hbounds))
  have hdenotes : Denotes "Phrase[] & Clause".toList
      (seq [bounded (name "Phrase" ⟨0, 6⟩) ⟨none, none, ⟨6, 8⟩⟩, name "Clause" ⟨11, 17⟩]) :=
    .single .alternation (.chain hhead htail)
  have hread := ofText_of_denotes hdenotes
  refine ⟨hread, ((compile_eq_error_iff_first_offender hread).2.1 _).mpr ?_⟩
  simp only [← mem_errors_iff]
  decide +kernel

end Expression

end MessageGrammar.Notation
