import MessageGrammar.Text.CodePoints

/-!
# Blanks

The characters with the Unicode property `White_Space`, which may stand around the parts of a
grammar's notation.
-/

namespace MessageGrammar.Text

/-- The twenty-five code points of the property. -/
def whiteSpace : CodePoints :=
  [(0x9, 0xd), (0x20, 0x20), (0x85, 0x85), (0xa0, 0xa0), (0x1680, 0x1680), (0x2000, 0x200a),
    (0x2028, 0x2029), (0x202f, 0x202f), (0x205f, 0x205f), (0x3000, 0x3000)]

/-- Whether a character is Unicode white space. -/
def isBlank (c : Char) : Bool :=
  whiteSpace.has c

/-- The ASCII white space of the core library is among the blanks. -/
theorem isBlank_of_isWhitespace {c : Char} (h : c.isWhitespace = true) : isBlank c = true := by
  simp only [Char.isWhitespace, Bool.or_eq_true, decide_eq_true_eq] at h
  rcases h with ((rfl | rfl) | rfl) | rfl <;> decide

end MessageGrammar.Text
