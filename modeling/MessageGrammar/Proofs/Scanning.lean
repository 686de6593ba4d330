import MessageGrammar.Proofs.Recognition

/-!
# What no expression contains

A text is passed over character by character, with a state that knows only about quotes and
brackets. It stops at bounds right behind other bounds and at a backslash between quotes before
anything but a quote or a backslash. No text of an expression makes it stop, which tells that a text
is no expression without a look at its structure.
-/

namespace MessageGrammar.Notation

/-- Where a character stands. -/
inductive Lexical where
  /-- Between quotes it does not; `closed` if a bracket was closed and only white space came
  since. -/
  | outside (closed : Bool)
  /-- Between quotes. -/
  | quoted
  /-- Between quotes and behind a backslash. -/
  | escaped
  deriving DecidableEq

namespace Lexical

/-- What follows a character, if it may stand there. -/
def step : Lexical → Char → Option Lexical
  | outside closed, c =>
    if c = '"' then some quoted
    else if c = '[' then if closed then none else some (outside false)
    else if c = ']' then some (outside true)
    else if Text.isBlank c then some (outside closed)
    else some (outside false)
  | quoted, c =>
    if c = '"' then some (outside false) else if c = '\\' then some escaped else some quoted
  | escaped, c => if c = '"' ∨ c = '\\' then some quoted else none

/-- What follows a text, if all of its characters may stand there. -/
def scan (state : Lexical) (text : List Char) : Option Lexical :=
  text.foldlM step state

variable {state : Lexical} {c : Char} {text more : List Char}

/-- Nothing changes nothing. -/
@[simp] theorem scan_nil : state.scan [] = some state :=
  rfl

/-- The first character is passed over first. -/
theorem scan_cons : state.scan (c :: text) = (state.step c).bind fun next => next.scan text := by
  rw [scan, List.foldlM_cons]
  rfl

/-- Two texts are passed over one after the other. -/
theorem scan_append :
    state.scan (text ++ more) = (state.scan text).bind fun next => next.scan more := by
  rw [scan, List.foldlM_append]
  rfl

/-- A character outside of quotes that says nothing about brackets. -/
def Ordinary (c : Char) : Prop :=
  c ≠ '"' ∧ c ≠ '[' ∧ c ≠ ']' ∧ Text.isBlank c = false

instance (c : Char) : Decidable (Ordinary c) :=
  inferInstanceAs (Decidable (_ ∧ _))

/-- Behind an ordinary character no bracket is closed. -/
theorem step_of_ordinary {closed : Bool} (h : Ordinary c) :
    (outside closed).step c = some (outside false) := by
  obtain ⟨hquote, hopen, hclose, hblank⟩ := h
  simp [step, hquote, hopen, hclose, hblank]

/-- White space changes nothing. -/
theorem step_of_isBlank {closed : Bool} (h : Text.isBlank c = true) :
    (outside closed).step c = some (outside closed) := by
  have hother : c ≠ '"' ∧ c ≠ '[' ∧ c ≠ ']' := by
    refine ⟨?_, ?_, ?_⟩ <;>
    · rintro rfl
      exact absurd h (by decide)
  simp [step, hother, h]

/-- White space changes nothing, however much of it there is. -/
theorem scan_of_isBlank {closed : Bool} (h : ∀ c ∈ text, Text.isBlank c = true) :
    (outside closed).scan text = some (outside closed) := by
  induction text with
  | nil => rfl
  | cons c text ih =>
    obtain ⟨hc, htext⟩ := List.forall_mem_cons.mp h
    rw [scan_cons, step_of_isBlank hc, Option.bind_some, ih htext]

/-- Behind ordinary characters no bracket is closed. -/
theorem scan_of_ordinary {closed : Bool} (hne : text ≠ []) (h : ∀ c ∈ text, Ordinary c) :
    (outside closed).scan text = some (outside false) := by
  induction text generalizing closed with
  | nil => exact absurd rfl hne
  | cons c text ih =>
    obtain ⟨hc, htext⟩ := List.forall_mem_cons.mp h
    rw [scan_cons, step_of_ordinary hc, Option.bind_some]
    by_cases hnil : text = []
    · rw [hnil]
      rfl
    · exact ih hnil htext

/-- Characters of names are ordinary. -/
theorem ordinary_of_continuesName (h : Parser.continuesName c = true) : Ordinary c := by
  refine ⟨?_, ?_, ?_, isBlank_eq_false_of_continuesName h⟩ <;>
  · rintro rfl
    exact absurd h (by decide)

/-- Behind a name no bracket is closed. -/
theorem scan_of_isName {closed : Bool} (h : IsName text) :
    (outside closed).scan text = some (outside false) := by
  obtain ⟨c, others, rfl, hc, hothers⟩ := h
  refine scan_of_ordinary (List.cons_ne_nil _ _) (List.forall_mem_cons.mpr ⟨?_, fun d hd => ?_⟩)
  · exact ordinary_of_continuesName (continuesName_of_startsName hc)
  · exact ordinary_of_continuesName (hothers d hd)

/-- Digits are ordinary. -/
theorem ordinary_of_isDigit (h : c.isDigit = true) : Ordinary c :=
  ordinary_of_continuesName (continuesName_of_isDigit h)

/-- What stands between quotes may stand there. -/
theorem scan_of_quoted {meant : List Char} (h : Quoted text meant) :
    quoted.scan text = some quoted := by
  induction h with
  | nil => rfl
  | plain hquote hbackslash _ ih =>
    rw [scan_cons, step, if_neg hquote, if_neg hbackslash, Option.bind_some, ih]
  | @escaped c written _ hspecial _ ih =>
    rw [scan_cons]
    show escaped.scan (c :: written) = some quoted
    rw [scan_cons, step, if_pos hspecial, Option.bind_some, ih]

end Lexical

/-- The text between two places is passed over from one state to another. -/
def Scans (before after : Lexical) : Stretch := fun start stop =>
  ∃ text, Spelled text start stop ∧ before.scan text = some after

section Scans

variable {before between after : Lexical} {closed : Bool} {start middle stop : Cursor}

/-- Nothing is passed over without a change. -/
theorem Scans.refl (state : Lexical) (place : Cursor) : Scans state state place place :=
  ⟨[], spelled_nil_iff.mpr rfl, rfl⟩

/-- A text is passed over piece by piece. -/
theorem Scans.trans (h : Scans before between start middle) (h' : Scans between after middle stop) :
    Scans before after start stop := by
  obtain ⟨text, htext, hscan⟩ := h
  obtain ⟨more, hmore, hscan'⟩ := h'
  refine ⟨text ++ more, spelled_append_iff.mpr ⟨middle, htext, hmore⟩, ?_⟩
  rw [Lexical.scan_append, hscan, Option.bind_some, hscan']

/-- White space is passed over without a change. -/
theorem Blanks.scans (h : Blanks start stop) :
    Scans (.outside closed) (.outside closed) start stop := by
  obtain ⟨gap, hgap, hblank⟩ := h
  exact ⟨gap, hgap, Lexical.scan_of_isBlank hblank⟩

/-- Ordinary characters are passed over. -/
theorem Spelled.scans {text : List Char} (h : Spelled text start stop) (hne : text ≠ [])
    (hordinary : ∀ c ∈ text, Lexical.Ordinary c) :
    Scans (.outside closed) (.outside false) start stop :=
  ⟨text, h, Lexical.scan_of_ordinary hne hordinary⟩

/-- White space around something changes nothing. -/
theorem Padded.scans {inner : Stretch} {closed' : Bool}
    (hinner : ∀ {a b}, inner a b → Scans (.outside closed) (.outside closed') a b)
    (h : Padded inner start stop) : Scans (.outside closed) (.outside closed') start stop := by
  obtain ⟨opened, closed, hbefore, hhere, hafter⟩ := h
  exact hbefore.scans.trans ((hinner hhere).trans hafter.scans)

/-- Ordinary marks are passed over. -/
theorem Mark.scans {c : Char} (h : Mark c start stop) (hc : Lexical.Ordinary c) :
    Scans (.outside closed) (.outside false) start stop :=
  Padded.scans (fun hhere => Spelled.scans hhere (List.cons_ne_nil _ _)
    (List.forall_mem_singleton.mpr hc)) h

/-- Strings are passed over. -/
theorem Literal.scans {text : String} (h : Literal text start stop) :
    Scans (.outside closed) (.outside false) start stop := by
  obtain ⟨written, hwritten, hquoted⟩ := h
  refine ⟨_, hwritten, ?_⟩
  rw [List.cons_append, Lexical.scan_cons]
  simp only [Lexical.step, if_true, Option.bind_some]
  rw [Lexical.scan_append, Lexical.scan_of_quoted hquoted]
  rfl

/-- Counts are passed over. -/
theorem Count.scans {n : UInt64} (h : Count n start stop) :
    Scans (.outside closed) (.outside false) start stop := by
  obtain ⟨digits, hdigits, hnumeral, -⟩ := h
  rcases hnumeral with rfl | ⟨c, others, rfl, -, hall⟩
  · exact hdigits.scans (List.cons_ne_nil _ _) (List.forall_mem_singleton.mpr (by decide))
  · exact hdigits.scans (List.cons_ne_nil _ _) fun d hd => Lexical.ordinary_of_isDigit (hall d hd)

/-- What need not be there is passed over between brackets. -/
theorem Maybe.scans {α : Type} {inner : α → Stretch} {a : Option α} (h : Maybe inner a start stop)
    (hinner : ∀ {a x y}, inner a x y → Scans (.outside false) (.outside false) x y) :
    Scans (.outside false) (.outside false) start stop := by
  cases h with
  | absent => exact .refl _ start
  | present h => exact hinner h

/-- Upper bounds are passed over. -/
theorem Upper.scans {high : Option UInt64} (h : Upper high start stop) :
    Scans (.outside closed) (.outside false) start stop := by
  obtain ⟨place, hmark, hcount⟩ := h
  exact (hmark.scans (by decide)).trans (hcount.scans fun hpadded => hpadded.scans Count.scans)

/-- Bounds are passed over where no bracket was closed before. -/
theorem Range.scans {bounds : Bounds} (h : Range bounds start stop) :
    Scans (.outside false) (.outside true) start stop := by
  obtain ⟨opened, between, closed, hopened, hlow, hhigh, hclosed, -⟩ := h
  have hfirst : Scans (.outside false) (.outside false) start opened := ⟨_, hopened, rfl⟩
  have hlast : Scans (.outside false) (.outside true) closed stop := ⟨_, hclosed, rfl⟩
  have hcount := hlow.scans fun hpadded => hpadded.scans Count.scans
  exact hfirst.trans (hcount.trans ((hhigh.scans Upper.scans).trans hlast))

end Scans

/-- Operators are ordinary. -/
theorem Operator.ordinary_symbol (operator : Operator) : Lexical.Ordinary operator.symbol := by
  cases operator <;> decide

/-- Whether bounds may end an expression of this kind. -/
def Layer.mayClose : Layer → Bool
  | bare | atom => false
  | item | chain _ => true

/-- The text between two places is passed over from everywhere outside of quotes to there again, and
ends with a closed bracket only if that is allowed. -/
def Passes (mayClose : Bool) : Stretch := fun start stop =>
  ∀ closed, ∃ closed', (closed' = true → mayClose = true) ∧
    Scans (.outside closed) (.outside closed') start stop

section Passes

variable {mayClose : Bool} {start middle stop : Cursor}

/-- What does not end with a closed bracket may be allowed to. -/
theorem Passes.of_scans (h : ∀ closed, Scans (.outside closed) (.outside false) start stop) :
    Passes mayClose start stop :=
  fun closed => ⟨false, nofun, h closed⟩

/-- What must not end with a closed bracket does not. -/
theorem Passes.scans (h : Passes false start stop) (closed : Bool) :
    Scans (.outside closed) (.outside false) start stop := by
  obtain ⟨closed', hclosed', hscans⟩ := h closed
  cases closed' with
  | false => exact hscans
  | true => cases hclosed' rfl

/-- Something before a text that is passed over. -/
theorem Passes.lead
    (h : ∀ closed, ∃ closed', Scans (.outside closed) (.outside closed') start middle)
    (h' : Passes mayClose middle stop) : Passes mayClose start stop := by
  intro closed
  obtain ⟨between, hbefore⟩ := h closed
  obtain ⟨closed', hclosed', hscans⟩ := h' between
  exact ⟨closed', hclosed', hbefore.trans hscans⟩

/-- A mark behind a text that is passed over. -/
theorem Passes.mark {c : Char} (h : Passes mayClose start middle) (hmark : Mark c middle stop)
    (hc : Lexical.Ordinary c) (closed : Bool) :
    Scans (.outside closed) (.outside false) start stop := by
  obtain ⟨closed', -, hscans⟩ := h closed
  exact hscans.trans (hmark.scans hc)

/-- A modifier, a parenthesis and what stands behind it are passed over up to the closing one. -/
theorem passes_call {modifier : List Char} {a b c : Cursor}
    (hmodifier : IsName modifier) (hhere : Spelled modifier start a) (hopened : Mark '(' a b)
    (hcontent : Passes mayClose b c) (hclosed : Mark ')' c stop) : Passes false start stop := by
  have hname : ∀ closed, Scans (.outside closed) (.outside false) start a := fun closed =>
    ⟨modifier, hhere, Lexical.scan_of_isName hmodifier⟩
  refine .of_scans fun closed => (hname closed).trans ((hopened.scans (by decide)).trans ?_)
  exact hcontent.mark hclosed (by decide) false

mutual

/-- Every expression is passed over. -/
theorem Derives.passes {layer : Layer} {tree : Expression} {start stop : Cursor} :
    Derives layer tree start stop → Passes layer.mayClose start stop
  | .name isName here => .of_scans fun _ => ⟨_, here, Lexical.scan_of_isName isName⟩
  | .missing modifier opened argument closed =>
    passes_call (by decide) modifier opened
      (.of_scans fun _ => argument.scans Literal.scans : Passes false _ _) closed
  | .optional modifier opened argument closed =>
    passes_call (by decide) modifier opened argument.passes closed
  | .drop modifier opened argument closed =>
    passes_call (by decide) modifier opened argument.passes closed
  | .tag modifier opened label comma argument closed =>
    passes_call (by decide) modifier opened
      (argument.passes.lead fun _ =>
        ⟨false, (label.scans Literal.scans).trans (comma.scans (by decide))⟩) closed
  | .group opened content closed =>
    .of_scans fun _ =>
      (opened.scans (by decide)).trans (content.passes.mark closed (by decide) false)
  | .atom before content after =>
    .of_scans fun closed => before.scans.trans ((content.passes.scans closed).trans after.scans)
  | .plain content => .of_scans content.passes.scans
  | .bounded content range => fun closed =>
    ⟨true, fun _ => rfl, (content.passes.scans closed).trans (range.scans Range.scans)⟩
  | .chain first others => by
    refine others.passes.lead fun closed => ?_
    obtain ⟨closed', -, hscans⟩ := first.passes closed
    exact ⟨closed', hscans⟩

/-- The elements of every chain are passed over. -/
theorem DerivesTail.passes {operator : Operator} {tail : List Expression}
    {start stop : Cursor} :
    DerivesTail operator tail start stop → Passes true start stop
  | .nil place => fun closed => ⟨closed, fun _ => rfl, .refl _ place⟩
  | .cons symbol next others => by
    refine others.passes.lead fun closed => ?_
    obtain ⟨closed', -, hscans⟩ := next.passes false
    exact ⟨closed', (symbol.scans operator.ordinary_symbol).trans hscans⟩

end

end Passes

/-- No text of an expression makes the scan stop. -/
theorem Denotes.scan {source : List Char} {tree : Expression} (h : Denotes source tree) :
    ∃ state, (Lexical.outside false).scan source = some state := by
  obtain ⟨closed, -, text, hspelled, hscan⟩ := h.passes false
  have hsource : source = text ++ [] := hspelled.rest
  rw [List.append_nil] at hsource
  rw [hsource]
  exact ⟨_, hscan⟩

end MessageGrammar.Notation
