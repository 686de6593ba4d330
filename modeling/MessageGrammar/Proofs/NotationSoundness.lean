import MessageGrammar.Proofs.Replies

/-!
# What is read is derived

Parser by parser: a value that is read from some place on stands there by the rules of the notation.
An expression inside another one is read only where fewer characters are left; this guard never
decides anything, since an opening parenthesis stands before every inner expression, so an
expression is an alternation of items that hold expressions.
-/

namespace MessageGrammar.Notation

/-- What a parser reads is in accordance with a rule. -/
def Sound {α : Type} (parser : Parser α) (rule : α → Stretch) : Prop :=
  ∀ a start stop, (parser start).result = some (a, stop) → rule a start stop

/-- The rule for expressions inside others. -/
abbrev IsExpression : Expression → Stretch :=
  Derives (.chain .alternation)

namespace Parser

variable {α : Type}

/-- White space is read. -/
theorem sound_blanks : Sound blanks fun _ => Blanks := by
  intro _ start stop h
  rw [result_blanks] at h
  cases h
  exact Cursor.blanks_settle start

/-- A character is read where it stands. -/
theorem sound_char (c : Char) : Sound (char c) fun _ => Spelled [c] :=
  fun _ start _ h => (result_char_eq_some_iff start).mp h

/-- White space around a value is read. -/
theorem sound_padded {parser : Parser α} {rule : α → Stretch} (hparser : Sound parser rule) :
    Sound (padded parser) fun a => Padded (rule a) := by
  intro a start stop h
  rw [result_padded, Option.map_eq_some_iff] at h
  obtain ⟨⟨b, closed⟩, hread, heq⟩ := h
  cases heq
  exact ⟨start.settle, closed, Cursor.blanks_settle start, hparser _ _ _ hread,
    Cursor.blanks_settle closed⟩

/-- A mark is read. -/
theorem sound_mark (c : Char) : Sound (mark c) fun _ => Mark c :=
  sound_padded (sound_char c)

/-- A value that need not be there is read or is not there. -/
theorem sound_optional {parser : Parser α} {rule : α → Stretch} (hparser : Sound parser rule) :
    Sound (optional parser) (Maybe rule) := by
  intro a start stop h
  rw [result_optional, Option.some_inj] at h
  cases hresult : (parser start).result with
  | none =>
    rw [hresult] at h
    cases h
    exact .absent start
  | some read =>
    rw [hresult] at h
    cases h
    exact .present (hparser _ _ _ hresult)

/-- A value in parentheses is read between its marks. -/
theorem sound_parenthesized {parser : Parser α} {rule : α → Stretch} (hparser : Sound parser rule) :
    Sound (parenthesized parser) fun a start stop =>
      ∃ x y, Mark '(' start x ∧ rule a x y ∧ Mark ')' y stop := by
  intro a start stop h
  obtain ⟨_, x, hopened, h⟩ := result_andThen.mp h
  obtain ⟨b, y, hvalue, h⟩ := result_andThen.mp h
  obtain ⟨_, z, hclosed, h⟩ := result_andThen.mp h
  cases h
  exact ⟨x, y, sound_mark _ _ _ _ hopened, hparser _ _ _ hvalue, sound_mark _ _ _ _ hclosed⟩

/-- The digits read are a numeral. -/
theorem sound_digits : Sound digits fun text start stop =>
    Spelled text start stop ∧ IsNumeral text := by
  intro text start stop h
  unfold digits at h
  split at h
  next => cases h
  next c others hrest =>
    have hprefix : c :: others.takeWhile Char.isDigit <+: start.rest := by
      rw [hrest]
      exact List.cons_prefix_cons.mpr ⟨rfl, List.takeWhile_prefix _⟩
    split at h
    next hc =>
      have hzero : ['0'] <+: start.rest := ⟨others, by rw [hrest, hc]; rfl⟩
      cases h
      exact ⟨spelled_skip hzero, .inl rfl⟩
    next hc =>
      split at h
      next hdigit =>
        cases h
        refine ⟨spelled_skip hprefix, .inr ⟨c, _, rfl, hc, ?_⟩⟩
        intro d hd
        rcases List.mem_cons.mp hd with rfl | hd
        · exact hdigit
        · exact List.all_eq_true.mp List.all_takeWhile d hd
      next => cases h

/-- The count read has its numeral there. -/
theorem sound_count : Sound count Count := by
  intro n start stop h
  obtain ⟨_, _, hstart, h⟩ := result_andThen.mp h
  cases hstart
  obtain ⟨text, after, hdigits, h⟩ := result_andThen.mp h
  obtain ⟨_, _, hstop, h⟩ := result_andThen.mp h
  cases hstop
  obtain ⟨hspelled, hnumeral⟩ := sound_digits _ _ _ hdigits
  split at h
  next hsize =>
    cases h
    refine ⟨text, hspelled, hnumeral, ?_⟩
    exact (UInt64.toNat_ofNat_of_lt hsize).symm
  next => cases h

/-- The bounds read stand between their brackets. -/
theorem sound_bounds : Sound bounds fun range => Padded (Range range) := by
  intro range start stop h
  obtain ⟨_, opened, hbefore, h⟩ := result_andThen.mp h
  obtain ⟨_, _, hstart, h⟩ := result_andThen.mp h
  cases hstart
  obtain ⟨_, a, hopened, h⟩ := result_andThen.mp h
  obtain ⟨low, b, hlow, h⟩ := result_andThen.mp h
  obtain ⟨high, c, hhigh, h⟩ := result_andThen.mp h
  obtain ⟨_, closed, hclosed, h⟩ := result_andThen.mp h
  obtain ⟨_, _, hstop, h⟩ := result_andThen.mp h
  cases hstop
  obtain ⟨_, _, hafter, h⟩ := result_andThen.mp h
  cases h
  have hupper : Sound (do mark ':'; optional (padded count)) Upper := by
    intro upper start stop h
    obtain ⟨_, place, hmark, h⟩ := result_andThen.mp h
    exact ⟨place, sound_mark _ _ _ _ hmark, sound_optional (sound_padded sound_count) _ _ _ h⟩
  refine ⟨opened, closed, sound_blanks _ _ _ hbefore, ?_, sound_blanks _ _ _ hafter⟩
  exact ⟨a, b, c, sound_char _ _ _ _ hopened,
    sound_optional (sound_padded sound_count) _ _ _ hlow, sound_optional hupper _ _ _ hhigh,
    sound_char _ _ _ _ hclosed, rfl⟩

/-- The name read stands there. -/
theorem sound_identifier : Sound identifier fun text start stop =>
    IsName text.toList ∧ Spelled text.toList start stop := by
  intro text start stop h
  unfold identifier at h
  split at h
  next => cases h
  next c others hrest =>
    split at h
    next hc =>
      have hprefix : c :: others.takeWhile continuesName <+: start.rest := by
        rw [hrest]
        exact List.cons_prefix_cons.mpr ⟨rfl, List.takeWhile_prefix _⟩
      cases h
      rw [String.toList_ofList]
      refine ⟨⟨c, _, rfl, hc, ?_⟩, spelled_skip hprefix⟩
      intro d hd
      exact List.all_eq_true.mp List.all_takeWhile d hd
    next => cases h

/-- What is unquoted stands before a closing quote. -/
theorem quoted_of_unquote {text meant : List Char} {n : Nat} (h : unquote text = some (meant, n)) :
    ∃ written more, text = written ++ '"' :: more ∧ written.length = n ∧ Quoted written meant := by
  fun_induction unquote text generalizing meant n with
  | case1 => cases h
  | case2 more =>
    cases h
    exact ⟨[], more, rfl, rfl, .nil⟩
  | case3 c others hc ih =>
    obtain ⟨⟨meant, n⟩, hothers, heq⟩ := Option.map_eq_some_iff.mp h
    cases heq
    obtain ⟨written, more, htext, hlength, hquoted⟩ := ih hothers
    refine ⟨'\\' :: c :: written, more, by rw [htext]; rfl, ?_, .escaped hc hquoted⟩
    rw [List.length_cons, List.length_cons, hlength]
  | case4 => cases h
  | case5 => cases h
  | case6 c others hquote hescape hlast ih =>
    obtain ⟨⟨meant, n⟩, hothers, heq⟩ := Option.map_eq_some_iff.mp h
    cases heq
    obtain ⟨written, more, htext, hlength, hquoted⟩ := ih hothers
    have hbackslash : c ≠ '\\' := by
      intro hc
      cases others with
      | nil => exact hlast hc rfl
      | cons d others => exact hescape d others hc rfl
    refine ⟨c :: written, more, by rw [htext]; rfl, ?_, .plain hquote hbackslash hquoted⟩
    rw [List.length_cons, hlength]

/-- The string read stands between its quotes. -/
theorem sound_string : Sound string fun text => Padded (Literal text) := by
  refine sound_padded ?_
  intro text start stop h
  obtain ⟨_, opened, hopened, h⟩ := result_andThen.mp h
  obtain ⟨read, closed, hread, h⟩ := result_andThen.mp h
  obtain ⟨_, after, hclosed, h⟩ := result_andThen.mp h
  cases h
  split at hread
  next meant n hunquote =>
    cases hread
    obtain ⟨written, more, hrest, hlength, hquoted⟩ := quoted_of_unquote hunquote
    have hwritten : Spelled written opened (opened.skip n) := by
      rw [← hlength]
      exact spelled_skip ⟨'"' :: more, hrest.symm⟩
    refine ⟨written, ?_, ?_⟩
    · rw [List.cons_append, spelled_cons_iff]
      refine ⟨opened, sound_char _ _ _ _ hopened, spelled_append_iff.mpr ?_⟩
      exact ⟨_, hwritten, sound_char _ _ _ _ hclosed⟩
    · rw [String.toList_ofList]
      exact hquoted
  next => cases hread

section Nested

variable {nested : Parser Expression} (hnested : Sound nested IsExpression)

include hnested

/-- The call read behind the name of a modifier stands there. -/
theorem sound_call {modifier : String} {tree : Expression} {start place stop : Cursor}
    (hmodifier : Spelled modifier.toList start place)
    (h : (call nested modifier place).result = some (tree, stop)) :
    Derives .bare tree start stop := by
  unfold call at h
  split at h
  next hname =>
    rw [hname] at hmodifier
    rw [result_map, Option.map_eq_some_iff] at h
    obtain ⟨⟨label, _⟩, h, heq⟩ := h
    cases heq
    obtain ⟨x, y, hopened, hlabel, hclosed⟩ := sound_parenthesized sound_string _ _ _ h
    exact .missing hmodifier hopened hlabel hclosed
  split at h
  next hname =>
    rw [hname] at hmodifier
    rw [result_map, Option.map_eq_some_iff] at h
    obtain ⟨⟨inner, _⟩, h, heq⟩ := h
    cases heq
    obtain ⟨x, y, hopened, hinner, hclosed⟩ := sound_parenthesized hnested _ _ _ h
    exact .optional hmodifier hopened hinner hclosed
  split at h
  next hname =>
    rw [hname] at hmodifier
    rw [result_map, Option.map_eq_some_iff] at h
    obtain ⟨⟨inner, _⟩, h, heq⟩ := h
    cases heq
    obtain ⟨x, y, hopened, hinner, hclosed⟩ := sound_parenthesized hnested _ _ _ h
    exact .drop hmodifier hopened hinner hclosed
  split at h
  next hname =>
    rw [hname] at hmodifier
    have harguments : Sound (do
        let name ← string
        mark ','
        let inner ← nested
        return Expression.tag name inner)
        fun tree b e => ∃ field inner c d, tree = .tag field inner ∧ Padded (Literal field) b c ∧
          Mark ',' c d ∧ IsExpression inner d e := by
      intro tree b e h
      obtain ⟨field, c, hfield, h⟩ := result_andThen.mp h
      obtain ⟨_, d, hcomma, h⟩ := result_andThen.mp h
      obtain ⟨inner, _, hinner, h⟩ := result_andThen.mp h
      cases h
      exact ⟨field, inner, c, d, rfl, sound_string _ _ _ hfield, sound_mark _ _ _ _ hcomma,
        hnested _ _ _ hinner⟩
    obtain ⟨b, e, hopened, ⟨field, inner, c, d, htree, hfield, hcomma, hinner⟩, hclosed⟩ :=
      sound_parenthesized harguments _ _ _ h
    rw [htree]
    exact .tag hmodifier hopened hfield hcomma hinner hclosed
  next => cases h

/-- The name or call read stands there. -/
theorem sound_named : Sound (named nested) (Derives .bare) := by
  intro tree start stop h
  obtain ⟨_, _, hstart, h⟩ := result_andThen.mp h
  cases hstart
  obtain ⟨text, place, htext, h⟩ := result_andThen.mp h
  obtain ⟨_, _, hplace, h⟩ := result_andThen.mp h
  cases hplace
  obtain ⟨hname, hspelled⟩ := sound_identifier _ _ _ htext
  rw [result_orElse] at h
  cases hcall : (call nested text place).result with
  | none =>
    rw [hcall] at h
    cases h
    have hderived := Derives.name hname hspelled
    rwa [String.ofList_toList] at hderived
  | some read =>
    rw [hcall] at h
    cases h
    exact sound_call hnested hspelled hcall

/-- The atom read stands there with the white space around it. -/
theorem sound_atom : Sound (atom nested) (Derives .atom) := by
  intro tree start stop h
  obtain ⟨⟨_, closed⟩, hread, heq⟩ :=
    Option.map_eq_some_iff.mp ((result_padded _ start).symm.trans h)
  cases heq
  refine .atom (Cursor.blanks_settle start) ?_ (Cursor.blanks_settle closed)
  dsimp only at hread
  split at hread
  next =>
    obtain ⟨x, y, hopened, hinner, hclosed⟩ := sound_parenthesized hnested _ _ _ hread
    exact .group hopened hinner hclosed
  next => exact sound_named hnested _ _ _ hread

/-- The item read stands there. -/
theorem sound_item : Sound (item nested) (Derives .item) := by
  intro tree start stop h
  obtain ⟨inner, place, hinner, h⟩ := result_andThen.mp h
  obtain ⟨range, after, hrange, h⟩ := result_andThen.mp h
  have hcontent := sound_atom hnested _ _ _ hinner
  cases sound_optional sound_bounds _ _ _ hrange with
  | absent =>
    cases h
    exact .plain hcontent
  | present hpresent =>
    cases h
    exact .bounded hcontent hpresent

end Nested

/-- The elements read behind the first one stand behind the operator. -/
theorem sound_many {operator : Operator} {parser : Parser Expression}
    (hparser : Sound parser fun tree start stop =>
      ∃ place, Mark operator.symbol start place ∧ Derives operator.operand tree place stop) :
    Sound (many parser) (DerivesTail operator) := by
  intro trees start stop h
  fun_induction many parser start generalizing trees stop with
  | case1 start _ _ =>
    cases h
    exact .nil start
  | case2 start head after _ hread _ others ih =>
    obtain ⟨⟨tail, _⟩, htail, heq⟩ := Option.map_eq_some_iff.mp h
    cases heq
    obtain ⟨place, hsymbol, hhead⟩ := hparser head start after (by rw [hread])
    exact .cons hsymbol hhead (ih _ _ htail)
  | case3 start head after _ hread _ =>
    cases h
    obtain ⟨place, hsymbol, hhead⟩ := hparser head start after (by rw [hread])
    exact .cons hsymbol hhead (.nil after)

/-- The chain read stands there. -/
theorem sound_chain (operator : Operator) {element : Parser Expression}
    (helement : Sound element (Derives operator.operand)) :
    Sound (chain operator.symbol operator.build element) (Derives (.chain operator)) := by
  intro tree start stop h
  obtain ⟨head, place, hhead, h⟩ := result_andThen.mp h
  obtain ⟨tail, after, htail, h⟩ := result_andThen.mp h
  have hnext : Sound (do mark operator.symbol; element) fun tree start stop =>
      ∃ place, Mark operator.symbol start place ∧ Derives operator.operand tree place stop := by
    intro tree start stop h
    obtain ⟨_, place, hsymbol, h⟩ := result_andThen.mp h
    exact ⟨place, sound_mark _ _ _ _ hsymbol, helement _ _ _ h⟩
  cases h
  exact .chain (helement _ _ _ hhead) (sound_many hnext _ _ _ htail)

/-- The alternation read stands there, if that holds of the expressions inside it. -/
theorem sound_alternation {nested : Parser Expression} (hnested : Sound nested IsExpression) :
    Sound (alternation nested) IsExpression := by
  have hpriority := sound_chain .priority (sound_item hnested)
  have hsequence := sound_chain .sequence hpriority
  exact sound_chain .alternation hsequence

/-- The expression read stands there. -/
theorem sound_expression : Sound expression IsExpression := by
  intro tree start stop h
  induction start using expression.induct generalizing tree stop with
  | case1 start ih =>
    rw [expression] at h
    refine sound_alternation ?_ tree start stop h
    intro tree inner stop h
    dsimp only at h
    split at h
    next hshorter => exact ih inner hshorter _ _ h
    next => cases h

end Parser

/-- A place further on in the same text. -/
def Forward : Stretch := fun start stop =>
  ∃ text, Spelled text start stop

section Forward

variable {start middle stop : Cursor}

/-- Every place is as far on as itself. -/
theorem Forward.refl (place : Cursor) : Forward place place :=
  ⟨[], spelled_nil_iff.mpr rfl⟩

/-- What is behind something behind a place is behind the place. -/
theorem Forward.trans (h : Forward start middle) (h' : Forward middle stop) :
    Forward start stop := by
  obtain ⟨text, htext⟩ := h
  obtain ⟨more, hmore⟩ := h'
  exact ⟨text ++ more, spelled_append_iff.mpr ⟨middle, htext, hmore⟩⟩

/-- No more text is left further on. -/
theorem Forward.length_le (h : Forward start stop) : stop.rest.length ≤ start.rest.length := by
  obtain ⟨text, htext⟩ := h
  have hlength := htext.length_rest
  omega

/-- The only place behind a whole text is its end. -/
theorem Forward.eq_end {source : List Char} (h : Forward ⟨0, source⟩ stop) (hend : stop.rest = []) :
    stop = ⟨source.length, []⟩ := by
  obtain ⟨text, htext⟩ := h
  have hsource : source = text ++ stop.rest := htext.rest
  have hposition : stop.position = 0 + text.length := htext.position
  rw [hend, List.append_nil] at hsource
  rw [Nat.zero_add, ← hsource] at hposition
  rw [← hposition, ← hend]

/-- Characters do not go back. -/
theorem Spelled.forward {text : List Char} (h : Spelled text start stop) : Forward start stop :=
  ⟨text, h⟩

/-- White space does not go back. -/
theorem Blanks.forward (h : Blanks start stop) : Forward start stop := by
  obtain ⟨gap, hgap, -⟩ := h
  exact hgap.forward

/-- White space around something changes nothing. -/
theorem Padded.forward {inner : Stretch} (hinner : ∀ {a b}, inner a b → Forward a b)
    (h : Padded inner start stop) : Forward start stop := by
  obtain ⟨opened, closed, hbefore, hhere, hafter⟩ := h
  exact hbefore.forward.trans ((hinner hhere).trans hafter.forward)

/-- A mark takes at least its character. -/
theorem Mark.length_lt {c : Char} (h : Mark c start stop) :
    stop.rest.length < start.rest.length := by
  obtain ⟨opened, closed, hbefore, hhere, hafter⟩ := h
  have hone : opened.rest.length = 1 + closed.rest.length := hhere.length_rest
  have hopened := hbefore.forward.length_le
  have hclosed := hafter.forward.length_le
  omega

/-- A mark does not go back. -/
theorem Mark.forward {c : Char} (h : Mark c start stop) : Forward start stop :=
  Padded.forward Spelled.forward h

/-- What need not be there changes nothing. -/
theorem Maybe.forward {α : Type} {inner : α → Stretch} {a : Option α}
    (hinner : ∀ {a x y}, inner a x y → Forward x y) (h : Maybe inner a start stop) :
    Forward start stop := by
  cases h with
  | absent => exact .refl start
  | present h => exact hinner h

/-- A string in quotes does not go back. -/
theorem Literal.forward {text : String} (h : Literal text start stop) : Forward start stop := by
  obtain ⟨written, hwritten, -⟩ := h
  exact hwritten.forward

/-- A count does not go back. -/
theorem Count.forward {n : UInt64} (h : Count n start stop) : Forward start stop := by
  obtain ⟨digits, hdigits, -⟩ := h
  exact hdigits.forward

/-- An upper bound does not go back. -/
theorem Upper.forward {high : Option UInt64} (h : Upper high start stop) : Forward start stop := by
  obtain ⟨place, hmark, hcount⟩ := h
  exact hmark.forward.trans (hcount.forward fun hpadded => hpadded.forward Count.forward)

/-- Bounds do not go back. -/
theorem Range.forward {bounds : Bounds} (h : Range bounds start stop) : Forward start stop := by
  obtain ⟨opened, between, closed, hopened, hlow, hhigh, hclosed, -⟩ := h
  have hlower := hlow.forward fun hpadded => hpadded.forward Count.forward
  have hupper := hhigh.forward Upper.forward
  exact hopened.forward.trans (hlower.trans (hupper.trans hclosed.forward))

mutual

/-- No expression goes back. -/
theorem Derives.forward {layer : Layer} {tree : Expression} {start stop : Cursor} :
    Derives layer tree start stop → Forward start stop
  | .name _ here => here.forward
  | .missing modifier opened argument closed =>
    modifier.forward.trans (opened.forward.trans
      ((argument.forward Literal.forward).trans closed.forward))
  | .optional modifier opened argument closed =>
    modifier.forward.trans (opened.forward.trans (argument.forward.trans closed.forward))
  | .drop modifier opened argument closed =>
    modifier.forward.trans (opened.forward.trans (argument.forward.trans closed.forward))
  | .tag modifier opened label comma argument closed =>
    modifier.forward.trans (opened.forward.trans ((label.forward Literal.forward).trans
      (comma.forward.trans (argument.forward.trans closed.forward))))
  | .group opened content closed =>
    opened.forward.trans (content.forward.trans closed.forward)
  | .atom before content after => before.forward.trans (content.forward.trans after.forward)
  | .plain content => content.forward
  | .bounded content range => content.forward.trans (range.forward Range.forward)
  | .chain first others => first.forward.trans others.forward

/-- No chain goes back. -/
theorem DerivesTail.forward {operator : Operator} {tail : List Expression}
    {start stop : Cursor} :
    DerivesTail operator tail start stop → Forward start stop
  | .nil place => .refl place
  | .cons symbol next others => symbol.forward.trans (next.forward.trans others.forward)

end

end Forward

namespace Parser

/-- Two parsers reply alike where fewer than `n` characters are left. -/
def AgreeBelow {α : Type} (n : Nat) (first second : Parser α) : Prop :=
  ∀ cursor, cursor.rest.length < n → first cursor = second cursor

section Agreement

variable {α β : Type} {n : Nat} {first second : Parser α}

/-- Parsers that reply like a third one reply alike. -/
theorem AgreeBelow.trans {third : Parser α} (h : AgreeBelow n first second)
    (h' : AgreeBelow n second third) : AgreeBelow n first third :=
  fun cursor hcursor => (h cursor hcursor).trans (h' cursor hcursor)

/-- Parsers that reply alike do so whatever comes behind them. -/
theorem AgreeBelow.bind (h : AgreeBelow n first second) (next : α → Parser β) :
    AgreeBelow n (first >>= next) (second >>= next) := by
  intro cursor hcursor
  show andThen first next cursor = andThen second next cursor
  unfold andThen
  rw [h cursor hcursor]

/-- Parsers that reply alike do so behind one that takes at least `taken` characters, also where so
many more are left. -/
theorem agreeBelow_bind {parser : Parser β} {next next' : β → Parser α} (taken : Nat)
    (hparser : Sound parser fun _ start stop => stop.rest.length + taken ≤ start.rest.length)
    (h : ∀ b, AgreeBelow n (next b) (next' b)) :
    AgreeBelow (n + taken) (parser >>= next) (parser >>= next') := by
  intro cursor hcursor
  show andThen parser next cursor = andThen parser next' cursor
  unfold andThen
  rcases hreply : parser cursor with ⟨result, furthest⟩
  cases result with
  | none => rfl
  | some read =>
    have hless := hparser read.1 cursor read.2 (by rw [hreply])
    simp only [h read.1 read.2 (by omega)]

/-- Parsers that reply alike do so with white space around them. -/
theorem AgreeBelow.padded (h : AgreeBelow n first second) :
    AgreeBelow n (padded first) (padded second) := by
  refine agreeBelow_bind 0 (fun b start stop hb => ?_) fun _ => h.bind _
  exact (sound_blanks b start stop hb).forward.length_le

/-- Parsers that reply alike do so in parentheses, also where one more character is left. -/
theorem AgreeBelow.parenthesized (h : AgreeBelow n first second) :
    AgreeBelow (n + 1) (parenthesized first) (parenthesized second) := by
  refine agreeBelow_bind 1 (fun b start stop hb => ?_) fun _ => h.bind _
  exact (sound_mark '(' b start stop hb).length_lt

/-- Parsers that reply alike do so before another attempt. -/
theorem AgreeBelow.orElse (h : AgreeBelow n first second) (other : Parser α) :
    AgreeBelow n (orElse first other) (orElse second other) := by
  intro cursor hcursor
  unfold Parser.orElse
  rw [h cursor hcursor]

/-- Parsers that reply alike do so again and again. -/
theorem AgreeBelow.many (h : AgreeBelow n first second) :
    AgreeBelow n (many first) (many second) := by
  intro cursor hcursor
  fun_induction Parser.many first cursor with
  | case1 cursor furthest hread =>
    rw [Parser.many, ← h cursor hcursor, hread]
  | case2 cursor a after furthest hread hshorter others ih =>
    have hothers : Parser.many first after = Parser.many second after := ih (by omega)
    rw [Parser.many, ← h cursor hcursor, hread]
    simp only [if_pos hshorter]
    rw [← hothers]
  | case3 cursor a after furthest hread hshorter =>
    rw [Parser.many, ← h cursor hcursor, hread]
    simp only [if_neg hshorter]

end Agreement

section Nested

variable {n : Nat} {first second : Parser Expression}

/-- The call of a modifier asks for an expression only behind a parenthesis. -/
theorem AgreeBelow.call (h : AgreeBelow n first second) (modifier : String) :
    AgreeBelow (n + 1) (call first modifier) (call second modifier) := by
  have htag : AgreeBelow n
      (do
        let name ← string
        mark ','
        let inner ← first
        return Expression.tag name inner)
      (do
        let name ← string
        mark ','
        let inner ← second
        return Expression.tag name inner) := by
    refine agreeBelow_bind 0 (fun field start stop hfield => ?_) fun field => ?_
    · exact ((sound_string field start stop hfield).forward Literal.forward).length_le
    · refine agreeBelow_bind 0 (fun b start stop hb => ?_) fun _ => h.bind _
      exact (sound_mark ',' b start stop hb).forward.length_le
  unfold Parser.call
  split
  · exact fun _ _ => rfl
  split
  · exact h.parenthesized.bind _
  split
  · exact h.parenthesized.bind _
  split
  · exact htag.parenthesized
  · exact fun _ _ => rfl

/-- A name or call asks for an expression only behind a parenthesis. -/
theorem AgreeBelow.named (h : AgreeBelow n first second) :
    AgreeBelow (n + 1) (named first) (named second) := by
  refine agreeBelow_bind 0 (fun b start stop hb => ?_) fun start => ?_
  · cases hb
    exact Nat.le_refl _
  refine agreeBelow_bind 0 (fun text start stop htext => ?_) fun text => ?_
  · exact (sound_identifier text start stop htext).2.forward.length_le
  refine agreeBelow_bind 0 (fun b start stop hb => ?_) fun stop => ?_
  · cases hb
    exact Nat.le_refl _
  exact (h.call text).orElse _

/-- An atom asks for an expression only behind a parenthesis. -/
theorem AgreeBelow.atom (h : AgreeBelow n first second) :
    AgreeBelow (n + 1) (atom first) (atom second) := by
  refine AgreeBelow.padded fun cursor hcursor => ?_
  rw [h.named cursor hcursor]
  simp only [h.parenthesized cursor hcursor]

/-- An item asks for an expression only behind a parenthesis. -/
theorem AgreeBelow.item (h : AgreeBelow n first second) :
    AgreeBelow (n + 1) (item first) (item second) :=
  h.atom.bind _

/-- Chains reply alike if their elements do and do not go back. -/
theorem AgreeBelow.chain (h : AgreeBelow n first second)
    (hforward : Sound second fun _ => Forward) (operator : Char)
    (build : List Expression → Expression) :
    AgreeBelow n (chain operator build first) (chain operator build second) := by
  have hnext : AgreeBelow n (do mark operator; first) (do mark operator; second) :=
    agreeBelow_bind 0
      (fun b start stop hb => (sound_mark operator b start stop hb).forward.length_le) fun _ => h
  refine (h.bind _).trans ?_
  exact agreeBelow_bind 0 (fun tree start stop hread => (hforward tree start stop hread).length_le)
    fun head => hnext.many.bind _

/-- An alternation asks for expressions only behind parentheses. -/
theorem AgreeBelow.alternation (h : AgreeBelow n first second)
    (hsecond : Sound second IsExpression) :
    AgreeBelow (n + 1) (alternation first) (alternation second) := by
  have hitem := sound_item hsecond
  have hpriority := sound_chain .priority hitem
  have hsequence := sound_chain .sequence hpriority
  have hagree := h.item.chain (fun _ _ _ hread => (hitem _ _ _ hread).forward) '%' .first
  have hagree := hagree.chain (fun _ _ _ hread => (hpriority _ _ _ hread).forward) '&' .seq
  exact hagree.chain (fun _ _ _ hread => (hsequence _ _ _ hread).forward) '|' .alt

end Nested

/-- An expression is an alternation of items that hold expressions. -/
theorem expression_eq : expression = alternation expression := by
  funext cursor
  have hagree : AgreeBelow cursor.rest.length
      (fun inner =>
        if inner.rest.length < cursor.rest.length then expression inner else ⟨none, .none⟩)
      expression :=
    fun inner hinner => if_pos hinner
  rw [expression]
  exact hagree.alternation sound_expression cursor (Nat.lt_succ_self _)

end Parser

end MessageGrammar.Notation
