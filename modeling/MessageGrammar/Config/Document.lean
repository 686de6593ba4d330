import MessageGrammar.Config.Scalar

/-!
# Configuration files

A file consists of lines: a comment, the header of a table, or a key with its value. Keys may be
quoted and joined by points. Values are texts in double quotes with escapes or in single quotes
without, numbers, truth values and lists. No key and no header may occur twice.

This is a part of the format TOML only. Inline tables, texts of several lines between three quotes,
dates and times, and arrays of tables are not read: a file with one of them is refused, though it is
well formed. What is said about the settings of all well-formed files is therefore not said about this
reader, but about any.
-/

namespace MessageGrammar.Config

/-- Takes a piece of a text from its beginning, and leaves the rest. -/
abbrev Scanner := StateT (List Char) Option

namespace Scanner

/-- Takes the longest run of characters that pass a test. -/
def takeWhile (p : Char → Bool) : Scanner (List Char) := fun s =>
  some (s.takeWhile p, s.dropWhile p)

/-- Takes this character. -/
def char (c : Char) : Scanner Unit := fun s =>
  match s with
  | d :: rest => if d = c then some ((), rest) else none
  | [] => none

/-- The next character, which is not taken. -/
def next? : Scanner (Option Char) := fun s =>
  some (s.head?, s)

/-- Passes over spaces and tabs. -/
def gap : Scanner Unit := do
  let _ ← takeWhile fun c => c = ' ' || c = '\t'

/-- Characters that may not stand in texts: controls other than the tab. -/
def isControl (c : Char) : Bool :=
  (c.toNat < 0x20 && c ≠ '\t') || c.toNat = 0x7f

/-- Passes over a comment, if there is one; it may also hold the last control, U+007F. -/
def comment : Scanner Unit := do
  if (← next?) = some '#' then
    let _ ← takeWhile fun c => c = '\x7f' || !isControl c

/-- Takes a line end, or finds the end of the text. -/
def lineEnd : Scanner Unit := fun s =>
  match s with
  | [] => some ((), [])
  | '\n' :: rest => some ((), rest)
  | '\r' :: '\n' :: rest => some ((), rest)
  | _ => none

/-- The character with that number, if there is one. -/
def scalar? (digits : List Char) : Option Char := do
  let n ← Scalar.based? 16 digits
  if n.isValidChar then some (Char.ofNat n) else none

/-- The character that a letter behind a backslash stands for. -/
def escaped? : Char → Option Char
  | 'b' => some '\x08'
  | 't' => some '\t'
  | 'n' => some '\n'
  | 'f' => some '\x0c'
  | 'r' => some '\r'
  | '"' => some '"'
  | '\\' => some '\\'
  | _ => none

/-- Takes the characters of a text up to the closing double quote. -/
def quotedRest : List Char → Option (List Char × List Char)
  | [] => none
  | '"' :: s => some ([], s)
  | '\\' :: 'u' :: a :: b :: c :: d :: s =>
    match scalar? [a, b, c, d] with
    | some e => (quotedRest s).map fun (text, rest) => (e :: text, rest)
    | none => none
  | '\\' :: 'U' :: a :: b :: c :: d :: e :: f :: g :: h :: s =>
    match scalar? [a, b, c, d, e, f, g, h] with
    | some e => (quotedRest s).map fun (text, rest) => (e :: text, rest)
    | none => none
  | '\\' :: c :: s =>
    match escaped? c with
    | some e => (quotedRest s).map fun (text, rest) => (e :: text, rest)
    | none => none
  | c :: s =>
    if isControl c || c = '\\' then none
    else (quotedRest s).map fun (text, rest) => (c :: text, rest)

/-- Takes a text in double quotes. -/
def quoted : Scanner String := do
  char '"'
  String.ofList <$> quotedRest

/-- Takes a text in single quotes, in which every character stands for itself. -/
def literal : Scanner String := do
  char '\''
  let text ← takeWhile fun c => c ≠ '\'' && !isControl c
  char '\''
  return String.ofList text

/-- Takes one key. -/
def key : Scanner String := do
  match ← next? with
  | some '"' => quoted
  | some '\'' => literal
  | _ =>
    let name ← takeWhile fun c => c.isAlphanum || c = '_' || c = '-'
    if name.isEmpty then failure else return String.ofList name

/-- Takes keys joined by points. -/
def keys : Nat → Scanner (List String)
  | 0 => failure
  | fuel + 1 => do
    gap
    let first ← key
    gap
    if (← next?) = some '.' then
      char '.'
      return first :: (← keys fuel)
    else return [first]

/-- Takes keys joined by points; there are fewer of them than characters. -/
def path : Scanner (List String) := fun s =>
  keys (s.length + 1) s

/-- Passes over spaces, line ends and comments inside a list. -/
def listGap : Nat → Scanner Unit
  | 0 => failure
  | fuel + 1 => do
    gap
    comment
    match ← next? with
    | some '\n' | some '\r' =>
      lineEnd
      listGap fuel
    | _ => return ()

/-- Takes elements up to the closing bracket of a list. -/
def elements (value : Scanner Value) : Nat → Scanner (List Value)
  | 0 => failure
  | fuel + 1 => do
    listGap (fuel + 1)
    if (← next?) = some ']' then
      char ']'
      return []
    let first ← value
    listGap (fuel + 1)
    if (← next?) = some ',' then
      char ','
      return first :: (← elements value fuel)
    else
      char ']'
      return [first]

/-- Takes a value; `fuel` bounds how deep lists are nested in one another. Inline tables, texts of
several lines, dates and times are values of the full format that are not taken. -/
def valueWithin : Nat → Scanner Value
  | 0 => failure
  | fuel + 1 => do
    match ← next? with
    | some '"' => .text <$> quoted
    | some '\'' => .text <$> literal
    | some '[' =>
      char '['
      let length ← List.length <$> get
      .list <$> elements (valueWithin fuel) (length + 1)
    | _ =>
      let word ← takeWhile fun c => c.isAlphanum || c = '+' || c = '-' || c = '.' || c = '_'
      match Scalar.ofWord? word with
      | some value => return value
      | none => failure

/-- Takes a value; there are more characters than nested lists. -/
def value : Scanner Value := fun s =>
  valueWithin (s.length + 1) s

end Scanner

/-- How a table came to be in a file, which decides what may be added to it. -/
inductive Origin where
  /-- By a header of its own. -/
  | header
  /-- On the way to the table of a longer header. -/
  | passage
  /-- On the way to a key with points. -/
  | points
  deriving DecidableEq, Repr

/-- The content of a file as far as it was read. -/
inductive Entry where
  /-- A value. -/
  | leaf (value : Value)
  /-- A table. -/
  | branch (origin : Origin) (entries : List (String × Entry))

namespace Entry

mutual

/-- The value of an entry. -/
def value : Entry → Value
  | leaf value => value
  | branch _ entries => .table (valueAll entries)

/-- The members that entries stand for. -/
def valueAll : List (String × Entry) → Members
  | [] => []
  | (key, entry) :: entries => (key, entry.value) :: valueAll entries

end

/-- Puts an entry in the place of the one with its key, or behind the others. -/
def put (key : String) (entry : Entry) : List (String × Entry) → List (String × Entry)
  | [] => [(key, entry)]
  | (name, old) :: others =>
    if name = key then (key, entry) :: others else (name, old) :: put key entry others

/-- Changes the table at a path. Tables that are not there are made with the origin `made`; a key
with points does not lead into a table that has a header. -/
def change (made : Origin)
    (edit : Origin → List (String × Entry) → Option (List (String × Entry))) :
    List String → Origin → List (String × Entry) → Option (List (String × Entry))
  | [], origin, entries => edit origin entries
  | key :: path, _, entries => do
    let (origin, inner) ← match entries.lookup key with
      | none => some (made, [])
      | some (branch origin inner) =>
        if made = .points ∧ origin = .header then none else some (origin, inner)
      | some (leaf _) => none
    return put key (branch origin (← change made edit path origin inner)) entries

/-- Opens the table of a header: a new one, or one that longer headers passed through. -/
def openTable (path : List String) (root : List (String × Entry)) :
    Option (List (String × Entry)) := do
  let last ← path.getLast?
  let edit (_ : Origin) (entries : List (String × Entry)) :=
    match entries.lookup last with
    | none => some (put last (branch .header []) entries)
    | some (branch .passage inner) => some (put last (branch .header inner) entries)
    | some _ => none
  change .passage edit path.dropLast .header root

/-- Gives a key its value, in the table of the last header. -/
def assign (table path : List String) (value : Value) (root : List (String × Entry)) :
    Option (List (String × Entry)) := do
  let last ← path.getLast?
  let store (origin : Origin) (entries : List (String × Entry)) :=
    if path.length > 1 ∧ origin ≠ .points then none
    else match entries.lookup last with
      | none => some (put last (leaf value) entries)
      | some _ => none
  change .passage (change .points store path.dropLast) table .header root

end Entry

/-- A file as far as it was read. -/
structure Document where
  /-- Everything in the file. -/
  root : List (String × Entry)
  /-- Path of the last header. -/
  table : List String

namespace Document

/-- Reads one line. The header of an element of an array of tables, in double brackets, is not
read. -/
def line (document : Document) : Scanner Document := do
  Scanner.gap
  let document ← match ← Scanner.next? with
    | none | some '#' | some '\n' | some '\r' => pure document
    | some '[' =>
      Scanner.char '['
      let path ← Scanner.path
      Scanner.char ']'
      match Entry.openTable path document.root with
      | some root => pure { root := root, table := path }
      | none => failure
    | some _ =>
      let path ← Scanner.path
      Scanner.char '='
      Scanner.gap
      let value ← Scanner.value
      match Entry.assign document.table path value document.root with
      | some root => pure { document with root := root }
      | none => failure
  Scanner.gap
  Scanner.comment
  Scanner.lineEnd
  return document

/-- Reads all lines; each takes at least one character. -/
def lines (document : Document) (s : List Char) : Option Document :=
  if s = [] then some document
  else match document.line s with
    | none => none
    | some (document, rest) =>
      if rest.length < s.length then document.lines rest else none
termination_by s.length

/-- The characters of a text without a byte order mark before them. -/
def unmarked (text : String) : List Char :=
  match text.toList with
  | '\ufeff' :: s => s
  | s => s

/-- The members that a file holds, if it is well formed and keeps to the part of the format that is
read here. -/
def read? (text : String) : Option Members :=
  (lines ⟨[], []⟩ (unmarked text)).map (Entry.valueAll ·.root)

end Document

end MessageGrammar.Config
