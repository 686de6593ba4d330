import MessageGrammar.Text.GraphemeExtend
import MessageGrammar.Text.Unprintable

/-!
# Quoted text

Text in double quotes, as messages and printed grammars show it: a character that could not be told
from its surroundings stands as an escape, every other character as itself.
-/

namespace MessageGrammar.Text

/-- The Hangul fillers: letters, but of the property `Default_Ignorable_Code_Point`, so that nothing
is shown for them. All other characters of that property are unprintable or join the one before. -/
def fillers : CodePoints :=
  [(0x115f, 0x1160), (0x3164, 0x3164), (0xffa0, 0xffa0)]

/-- The halfwidth Katakana sound marks: they extend the character before them, but are letters and
have a width of their own. -/
def soundMarks : CodePoints :=
  [(0xff9e, 0xff9f)]

/-- Whether a character needs a numbered escape: it has no visible form, or is a mark that joins the
character before it. -/
def isHidden (c : Char) : Bool :=
  unprintable.has c || fillers.has c || (graphemeExtend.has c && !soundMarks.has c)

/-- The characters that stand for one character between quotes. -/
def escape (c : Char) : List Char :=
  if c = '\x00' then ['\\', '0']
  else if c = '\t' then ['\\', 't']
  else if c = '\r' then ['\\', 'r']
  else if c = '\n' then ['\\', 'n']
  else if c = '"' then ['\\', '"']
  else if c = '\\' then ['\\', '\\']
  else if isHidden c then ['\\', 'u', '\x7b'] ++ Nat.toDigits 16 c.toNat ++ ['\x7d']
  else [c]

/-- The text between double quotes, character by character. -/
def quote (text : String) : String :=
  String.ofList ('"' :: text.toList.flatMap escape ++ ['"'])

end MessageGrammar.Text
