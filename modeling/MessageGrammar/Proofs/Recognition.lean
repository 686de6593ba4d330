import MessageGrammar.Notation.Compilation
import MessageGrammar.Proofs.NotationReading

/-!
# Recognition

A text is read as an expression exactly if the rules of the notation derive that expression from
it, so that each text has at most one. That a derivation is read needs to know what may follow:
behind an expression there is the end, a closing parenthesis or a looser operator, and none of these
lets an inner parser go on. Calls of modifiers, which are tried before plain names, cannot go wrong,
since no rule lets a parenthesis follow a name.
-/

namespace MessageGrammar.Notation

/-- An operator is no white space. -/
theorem Operator.isBlank_symbol (operator : Operator) : Text.isBlank operator.symbol = false := by
  cases operator <;> decide

namespace Layer

/-- The characters that may follow an expression of each kind inside another one. -/
def followers : Layer → List Char
  | bare | atom => [')', '|', '&', '%', '[']
  | item => [')', '|', '&', '%']
  | chain .priority => [')', '|', '&']
  | chain .sequence => [')', '|']
  | chain .alternation => [')']

/-- How an expression of each kind is read. An atom is read with the white space around it. -/
def parser : Layer → Parser Expression
  | bare | atom => Parser.atom Parser.expression
  | item => Parser.item Parser.expression
  | chain .priority => Parser.chain '%' .first (Parser.item Parser.expression)
  | chain .sequence =>
    Parser.chain '&' .seq (Parser.chain '%' .first (Parser.item Parser.expression))
  | chain .alternation => Parser.expression

/-- A chain is read element by element. -/
theorem parser_chain (operator : Operator) :
    (chain operator).parser =
      Parser.chain operator.symbol operator.build operator.operand.parser := by
  cases operator with
  | priority => rfl
  | sequence => rfl
  | alternation => exact Parser.expression_eq

/-- The elements of a chain that are read stand there. -/
theorem sound_operand (operator : Operator) :
    Sound operator.operand.parser (Derives operator.operand) := by
  have hitem := Parser.sound_item Parser.sound_expression
  have hpriority := Parser.sound_chain .priority hitem
  cases operator with
  | priority => exact hitem
  | sequence => exact hpriority
  | alternation => exact Parser.sound_chain .sequence hpriority

/-- What follows an expression continues no name and opens no call. -/
theorem of_mem_followers {layer : Layer} :
    ∀ c ∈ layer.followers, Parser.continuesName c = false ∧ c ≠ '(' := by
  rcases layer with _ | _ | _ | (_ | _ | _) <;> exact forall_mem_of_all (by decide)

/-- An atom may be followed by what may follow an item. -/
theorem mem_followers_atom : ∀ c ∈ item.followers, c ∈ atom.followers :=
  forall_mem_of_all (by decide)

/-- An element of a chain may be followed by what may follow the chain. -/
theorem mem_followers_operand {operator : Operator} :
    ∀ c ∈ (chain operator).followers, c ∈ operator.operand.followers := by
  cases operator <;> exact forall_mem_of_all (by decide)

/-- An element of a chain may be followed by the operator. -/
theorem symbol_mem_followers_operand (operator : Operator) :
    operator.symbol ∈ operator.operand.followers := by
  cases operator <;> decide

/-- A chain is not followed by its operator. -/
theorem symbol_notMem_followers (operator : Operator) :
    operator.symbol ∉ (chain operator).followers := by
  cases operator <;> decide

end Layer

/-- An expression of this kind that stands between two places is read from every place before it, if
it is followed by what may follow it. -/
def Recognised (layer : Layer) (tree : Expression) (start stop : Cursor) : Prop :=
  (∀ c ∈ stop.ahead, c ∈ layer.followers) →
    ∀ cursor, cursor.settle = start.settle →
      (layer.parser cursor).result = some (tree, stop.settle)

/-- The elements of a chain behind the first one are read if the chain is followed by what may
follow it. -/
def RecognisedTail (operator : Operator) (tail : List Expression) (start stop : Cursor) : Prop :=
  (∀ c ∈ stop.ahead, c ∈ (Layer.chain operator).followers) →
    (Parser.many (do Parser.mark operator.symbol; operator.operand.parser) start.settle).result =
      some (tail, stop.settle)

section Recognised

variable {start stop : Cursor}

/-- A name is read. -/
theorem recognised_name {text : List Char} (hname : IsName text)
    (hhere : Spelled text start stop) :
    Recognised .bare (.name (String.ofList text) ⟨start.position, stop.position⟩) start stop := by
  intro hnext cursor hcursor
  rw [← String.toList_ofList (l := text)] at hname hhere
  have hfollow : ∀ c ∈ stop.rest.head?, Text.isBlank c = true ∨ Parser.continuesName c = false :=
    fun c hc => (Cursor.head?_rest_cases hc).imp_right fun hahead =>
      (Layer.of_mem_followers c (hnext c hahead)).1
  have hcall : stop.ahead ≠ some '(' := fun hahead =>
    (Layer.of_mem_followers _ (hnext _ hahead)).2 rfl
  have hsettled := (Parser.reads_identifier _ _ _ ⟨hname, hhere⟩ hfollow).1
  refine Parser.result_atom_of_named Parser.expression ?_
  rw [hcursor, hsettled]
  exact Parser.result_named _ hname hhere hfollow (Parser.result_call_eq_none _ _ hcall)

/-- A call is read as such. -/
theorem recognised_call {modifier : String} {tree : Expression} {place after : Cursor}
    (hname : IsName modifier.toList) (hmodifier : Spelled modifier.toList start place)
    (hopened : Mark '(' place after)
    (hcall : (Parser.call Parser.expression modifier place).result = some (tree, stop.settle)) :
    Recognised .bare tree start stop := by
  intro _ cursor hcursor
  have hfollow : ∀ c ∈ place.rest.head?,
      Text.isBlank c = true ∨ Parser.continuesName c = false := by
    intro c hc
    refine (Cursor.head?_rest_cases hc).imp_right fun hahead => ?_
    rw [hopened.ahead_eq (by decide)] at hahead
    cases hahead
    decide
  have hsettled := (Parser.reads_identifier _ _ _ ⟨hname, hmodifier⟩ hfollow).1
  rw [← stop.settle_settle]
  refine Parser.result_atom_of_named Parser.expression ?_
  rw [hcursor, hsettled]
  exact Parser.result_named _ hname hmodifier hfollow hcall

/-- A closing parenthesis may follow every expression. -/
theorem closed_follows {place : Cursor} (h : Mark ')' place stop) :
    ∀ c ∈ place.ahead, c ∈ (Layer.chain .alternation).followers := by
  intro c hc
  rw [h.ahead_eq (by decide)] at hc
  cases hc
  decide

/-- An expression in parentheses is read up to the closing one. -/
theorem Recognised.parenthesized {inner : Expression} {a b c : Cursor} (hopened : Mark '(' a b)
    (hinner : Recognised (.chain .alternation) inner b c) (hclosed : Mark ')' c stop)
    {cursor : Cursor} (hcursor : cursor.settle = a.settle) :
    (Parser.parenthesized Parser.expression cursor).result = some (inner, stop.settle) := by
  have hread := hinner (closed_follows hclosed) b.settle b.settle_settle
  exact Parser.result_parenthesized hopened hclosed hread hcursor

/-- `missing` with its label is read. -/
theorem recognised_missing {label : String} {a b c : Cursor}
    (hmodifier : Spelled "missing".toList start a) (hopened : Mark '(' a b)
    (hlabel : Padded (Literal label) b c) (hclosed : Mark ')' c stop) :
    Recognised .bare (.missing label) start stop := by
  have hread := Parser.takes_string label b c b.settle hlabel (fun _ _ => trivial) b.settle_settle
  have hargument := Parser.result_parenthesized hopened hclosed hread rfl
  exact recognised_call (by decide) hmodifier hopened
    (Parser.result_call_missing _ hargument)

/-- `Optional` with its argument is read. -/
theorem recognised_optional {inner : Expression} {a b c : Cursor}
    (hmodifier : Spelled "Optional".toList start a) (hopened : Mark '(' a b)
    (hinner : Recognised (.chain .alternation) inner b c) (hclosed : Mark ')' c stop) :
    Recognised .bare (.optional inner) start stop :=
  recognised_call (by decide) hmodifier hopened
    (Parser.result_call_optional _ (hinner.parenthesized hopened hclosed rfl))

/-- `Drop` with its argument is read. -/
theorem recognised_drop {inner : Expression} {a b c : Cursor}
    (hmodifier : Spelled "Drop".toList start a) (hopened : Mark '(' a b)
    (hinner : Recognised (.chain .alternation) inner b c) (hclosed : Mark ')' c stop) :
    Recognised .bare (.drop inner) start stop :=
  recognised_call (by decide) hmodifier hopened
    (Parser.result_call_drop _ (hinner.parenthesized hopened hclosed rfl))

/-- `Tag` with its arguments is read. -/
theorem recognised_tag {field : String} {inner : Expression} {a b c d e : Cursor}
    (hmodifier : Spelled "Tag".toList start a) (hopened : Mark '(' a b)
    (hfield : Padded (Literal field) b c) (hcomma : Mark ',' c d)
    (hinner : Recognised (.chain .alternation) inner d e) (hclosed : Mark ')' e stop) :
    Recognised .bare (.tag field inner) start stop := by
  have hread := hinner (closed_follows hclosed) d.settle d.settle_settle
  exact recognised_call (by decide) hmodifier hopened
    (Parser.result_call_tag _ rfl hopened hfield hcomma hread hclosed)

/-- Parentheses are read. -/
theorem recognised_group {inner : Expression} {a b : Cursor} (hopened : Mark '(' start a)
    (hinner : Recognised (.chain .alternation) inner a b) (hclosed : Mark ')' b stop) :
    Recognised .bare inner start stop := by
  intro _ cursor hcursor
  have hahead : start.settle.rest.head? = some '(' := hopened.ahead_eq (by decide)
  rw [← hcursor] at hahead
  rw [← stop.settle_settle]
  refine Parser.result_atom_of_parenthesized _ ?_ ?_
  · exact Parser.result_named_eq_none _ hahead (by decide)
  · exact hinner.parenthesized hopened hclosed (cursor.settle_settle.trans hcursor)

/-- White space around an atom does not matter. -/
theorem Recognised.atom {tree : Expression} {a b : Cursor} (hbefore : Blanks start a)
    (hcontent : Recognised .bare tree a b) (hafter : Blanks b stop) :
    Recognised .atom tree start stop := by
  intro hnext cursor hcursor
  rw [← Cursor.ahead_eq_of_blanks hafter] at hnext
  rw [Cursor.settle_eq_of_blanks hbefore] at hcursor
  rw [← Cursor.settle_eq_of_blanks hafter]
  exact hcontent hnext cursor hcursor

/-- An atom that no bounds follow is an item. -/
theorem Recognised.plain {tree : Expression} (hcontent : Recognised .atom tree start stop) :
    Recognised .item tree start stop := by
  intro hnext cursor hcursor
  have hread := hcontent (fun c hc => Layer.mem_followers_atom c (hnext c hc)) cursor hcursor
  have hbounds : (Parser.bounds stop.settle).result = none := by
    refine Parser.result_bounds_eq_none ?_
    rw [Cursor.ahead_settle]
    exact fun hahead => absurd (hnext _ hahead) (by decide)
  refine Parser.result_andThen.mpr ⟨tree, stop.settle, hread, ?_⟩
  refine Parser.result_andThen.mpr ⟨none, stop.settle, ?_, rfl⟩
  rw [Parser.result_optional, hbounds]

/-- An atom with bounds is an item. -/
theorem Recognised.bounded {inner : Expression} {bounds : Bounds} {a : Cursor}
    (hcontent : Recognised .atom inner start a) (hrange : Padded (Range bounds) a stop) :
    Recognised .item (.bounded inner bounds) start stop := by
  intro _ cursor hcursor
  have hnext : ∀ c ∈ a.ahead, c ∈ Layer.followers .atom := by
    intro c hc
    obtain ⟨opened, _, hbefore, ⟨_, _, _, hopened, -⟩, -⟩ := hrange
    rw [Cursor.ahead_eq_of_blanks hbefore, Cursor.ahead_of_rest hopened.rest (by decide)] at hc
    cases hc
    decide
  have hread := hcontent hnext cursor hcursor
  have hbounds := Parser.takes_bounds bounds a stop a.settle hrange (fun _ _ => trivial)
    a.settle_settle
  refine Parser.result_andThen.mpr ⟨inner, a.settle, hread, ?_⟩
  refine Parser.result_andThen.mpr ⟨some bounds, stop.settle, ?_, rfl⟩
  rw [Parser.result_optional, hbounds]

/-- No more elements are read where another character than the operator follows. -/
theorem recognisedTail_nil (operator : Operator) (place : Cursor) :
    RecognisedTail operator [] place place := by
  intro hnext
  have hmark : (Parser.mark operator.symbol place.settle).result = none := by
    refine Parser.result_mark_eq_none _ fun hahead => ?_
    rw [Cursor.ahead_settle] at hahead
    exact Layer.symbol_notMem_followers operator (hnext _ hahead)
  refine Parser.result_many_of_none _ _ ?_
  rw [Parser.result_bind, hmark, Option.bind_none]

/-- What follows an element of a chain may follow it. -/
theorem tail_follows {operator : Operator} {tail : List Expression}
    (h : DerivesTail operator tail start stop)
    (hnext : ∀ c ∈ stop.ahead, c ∈ (Layer.chain operator).followers) :
    ∀ c ∈ start.ahead, c ∈ operator.operand.followers := by
  cases h with
  | nil => exact fun c hc => Layer.mem_followers_operand c (hnext c hc)
  | cons symbol _ _ =>
    intro c hc
    rw [symbol.ahead_eq operator.isBlank_symbol] at hc
    cases hc
    exact Layer.symbol_mem_followers_operand operator

/-- The operator, an element and the ones after it are read. -/
theorem RecognisedTail.cons {operator : Operator} {head : Expression} {tail : List Expression}
    {a b : Cursor} (hsymbol : Mark operator.symbol start a)
    (hhead : Recognised operator.operand head a b) (hothers : DerivesTail operator tail b stop)
    (htail : RecognisedTail operator tail b stop) :
    RecognisedTail operator (head :: tail) start stop := by
  intro hnext
  have hmark := Parser.takes_mark operator.isBlank_symbol () start a start.settle hsymbol
    (fun _ _ => trivial) start.settle_settle
  have helement := hhead (tail_follows hothers hnext) a.settle a.settle_settle
  have hread : ((do Parser.mark operator.symbol; operator.operand.parser : Parser Expression)
      start.settle).result = some (head, b.settle) :=
    Parser.result_andThen.mpr ⟨(), a.settle, hmark, helement⟩
  -- The elements go on only behind one that takes text; that the operator does, soundness tells.
  have hshorter : b.settle.rest.length < start.settle.rest.length := by
    have hless := (Parser.sound_mark _ _ _ _ hmark).length_lt
    have hle := (Layer.sound_operand operator _ _ _ helement).forward.length_le
    omega
  rw [Parser.result_many_of_some _ _ hread hshorter, htail hnext, Option.map_some]

/-- A chain is read. -/
theorem Recognised.chain {operator : Operator} {head : Expression} {tail : List Expression}
    {a : Cursor} (hhead : Recognised operator.operand head start a)
    (hothers : DerivesTail operator tail a stop) (htail : RecognisedTail operator tail a stop) :
    Recognised (.chain operator) (operator.join head tail) start stop := by
  intro hnext cursor hcursor
  have hfirst := hhead (tail_follows hothers hnext) cursor hcursor
  rw [Layer.parser_chain]
  refine Parser.result_andThen.mpr ⟨head, a.settle, hfirst, ?_⟩
  exact Parser.result_andThen.mpr ⟨tail, stop.settle, htail hnext, rfl⟩

end Recognised

mutual

/-- Every expression is read where nothing else than what may follow it does. -/
theorem Derives.recognised {layer : Layer} {tree : Expression} {start stop : Cursor} :
    Derives layer tree start stop → Recognised layer tree start stop
  | .name isName here => recognised_name isName here
  | .missing modifier opened argument closed => recognised_missing modifier opened argument closed
  | .optional modifier opened argument closed =>
    recognised_optional modifier opened argument.recognised closed
  | .drop modifier opened argument closed =>
    recognised_drop modifier opened argument.recognised closed
  | .tag modifier opened label comma argument closed =>
    recognised_tag modifier opened label comma argument.recognised closed
  | .group opened content closed => recognised_group opened content.recognised closed
  | .atom before content after => content.recognised.atom before after
  | .plain content => content.recognised.plain
  | .bounded content range => content.recognised.bounded range
  | .chain first others => first.recognised.chain others others.recognised

/-- The elements of every chain are read where nothing else than what may follow it does. -/
theorem DerivesTail.recognised {operator : Operator} {tail : List Expression}
    {start stop : Cursor} :
    DerivesTail operator tail start stop → RecognisedTail operator tail start stop
  | .nil place => recognisedTail_nil operator place
  | .cons symbol next others => .cons symbol next.recognised others others.recognised

end

namespace Expression

/-- An expression that is read up to the end of a text stands there. -/
theorem denotes_of_result {source : List Char} {tree : Expression} {stop : Cursor}
    (h : (Parser.expression (Cursor.settle ⟨0, source⟩)).result = some (tree, stop))
    (hend : stop.settle.rest = []) : Denotes source tree := by
  have hderived := Parser.sound_expression _ _ _ h
  have hnext : ∀ c ∈ stop.ahead, c ∈ (Layer.chain .alternation).followers := by
    intro c hc
    rw [Cursor.ahead, hend] at hc
    cases hc
  -- White space at the start of the text is read by the first atom as well.
  have hread := hderived.recognised hnext ⟨0, source⟩ (Cursor.settle_settle _).symm
  have hwhole := Parser.sound_expression _ _ _ hread
  rw [hwhole.forward.eq_end hend] at hwhole
  exact hwhole

/-- The text of an expression is read as this expression. -/
theorem ofText_of_denotes {source : List Char} {tree : Expression} (h : Denotes source tree) :
    ofText source = .ok tree := by
  have hend : Cursor.settle ⟨source.length, []⟩ = ⟨source.length, []⟩ := rfl
  have hread := h.recognised (fun _ hc => nomatch hc) (Cursor.settle ⟨0, source⟩)
    (Cursor.settle_settle _)
  have hwhole : (Parser.whole ⟨0, source⟩).result = some (tree, ⟨source.length, []⟩) := by
    refine Parser.result_andThen.mpr ⟨tree, ⟨source.length, []⟩, ?_, ?_⟩
    · exact (Parser.result_padded _ _).trans (congrArg _ hread)
    · exact Parser.result_andThen.mpr ⟨(), ⟨source.length, []⟩, rfl, rfl⟩
  rw [ofText]
  rcases hreply : Parser.whole ⟨0, source⟩ with ⟨result, furthest⟩
  rw [hreply] at hwhole
  cases hwhole
  rfl

/-- The expression that a text is read as stands there. -/
theorem denotes_of_ofText {source : List Char} {tree : Expression} (h : ofText source = .ok tree) :
    Denotes source tree := by
  rw [ofText] at h
  rcases hreply : Parser.whole ⟨0, source⟩ with ⟨result, furthest⟩
  rw [hreply] at h
  cases result with
  | none => cases h
  | some read =>
    cases h
    have hwhole : (Parser.whole ⟨0, source⟩).result = some (read.1, read.2) := by rw [hreply]
    obtain ⟨_, after, hpadded, hwhole⟩ := Parser.result_andThen.mp hwhole
    obtain ⟨_, _, hend, heq⟩ := Parser.result_andThen.mp hwhole
    cases heq
    replace hpadded := (Parser.result_padded _ _).symm.trans hpadded
    obtain ⟨⟨_, stop⟩, hread, heq⟩ := Option.map_eq_some_iff.mp hpadded
    cases heq
    refine denotes_of_result hread ?_
    unfold Parser.endOfText at hend
    split at hend
    next hrest => exact hrest
    next => cases hend

/-- A text is read as an expression exactly if the rules of the notation derive this expression from
it, and they derive no other one. -/
theorem ofText_eq_ok_iff_denotes (source : List Char) :
    (∀ tree, ofText source = .ok tree ↔ Denotes source tree) ∧
      ∀ tree tree', Denotes source tree → Denotes source tree' → tree = tree' := by
  refine ⟨fun tree => ⟨denotes_of_ofText, ofText_of_denotes⟩, fun tree tree' h h' => ?_⟩
  have heq := (ofText_of_denotes h).symm.trans (ofText_of_denotes h')
  cases heq
  rfl

end Expression

end MessageGrammar.Notation
