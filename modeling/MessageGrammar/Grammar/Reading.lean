import MessageGrammar.Enumeration
import MessageGrammar.Item

/-!
# Readings

A reading is what a grammar makes of the beginning of some tokens: the items, and the tokens that
are left. Readings one after another concatenate their items.
-/

namespace MessageGrammar

/-- Items for the first of some tokens, and the tokens after them. -/
structure Reading where
  /-- What the tokens were taken for. -/
  items : List Item
  /-- The tokens that were not taken. -/
  rest : List Token
  deriving Inhabited

namespace Reading

/-- Nothing is taken and nothing results. -/
def empty (tokens : List Token) : Reading :=
  ⟨[], tokens⟩

/-- The same tokens taken, without items. -/
def dropItems (reading : Reading) : Reading :=
  ⟨[], reading.rest⟩

/-- A reading that starts where earlier items end. -/
def after (earlier : List Item) (reading : Reading) : Reading :=
  ⟨earlier ++ reading.items, reading.rest⟩

@[simp] theorem after_nil (reading : Reading) : reading.after [] = reading := rfl

theorem after_after (earlier later : List Item) (reading : Reading) :
    (reading.after later).after earlier = reading.after (earlier ++ later) := by
  simp [after]

/-- The items as one named field. A reading with a diagnostic stays as it is, so that the
diagnostic remains visible. -/
def tagged (name : String) (reading : Reading) : Reading :=
  if reading.items.any Item.isDiagnostic then reading
  else ⟨[.field name (reading.items.flatMap Item.tokens)], reading.rest⟩

/-- A field takes the tokens that its items take. -/
theorem rest_tagged (name : String) (reading : Reading) :
    (reading.tagged name).rest = reading.rest := by
  unfold tagged
  split <;> rfl

end Reading

/-- A matcher gives all its readings of some tokens in order. -/
abbrev Matcher := List Token → Enumeration Reading

end MessageGrammar
