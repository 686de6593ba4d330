import MessageGrammar.Decimal.Layout
import MessageGrammar.Decimal.Literal
import MessageGrammar.Text.Lowercase

/-!
# Configuration values and their layers

A configuration is a tree of tables. Layers are put over one another table by table, key by key,
with keys in lower case; a value that is no table replaces what was there. A single value can also be
put at a path of keys and list positions, such as `output.format`.
-/

namespace MessageGrammar.Config

/-- A value of a configuration. -/
inductive Value where
  /-- The place of a list that was never given a value. -/
  | absent
  /-- A text. -/
  | text (value : String)
  /-- A whole number. -/
  | integer (value : Int)
  /-- A number with a fraction. -/
  | float (value : Float)
  /-- A truth value. -/
  | boolean (value : Bool)
  /-- Values in order. -/
  | list (elements : List Value)
  /-- Named values; of two members with one name the first counts. -/
  | table (members : List (String × Value))
  deriving Inhabited

/-- The members of a table. -/
abbrev Members := List (String × Value)

namespace Value

/-- Doubles in settings: always without an exponent, and whole numbers without a point. -/
def floatLayout : Decimal.Layout where
  lowest := -324
  highest := 308
  plus := false
  pointZero := false
  tie := .up

/-- The text a value has where a text is wanted. -/
def text? : Value → Option String
  | text value => some value
  | integer value => some (toString value)
  | float value => some (floatLayout.text value)
  | boolean value => some (if value then "true" else "false")
  | absent | list _ | table _ => none

/-- The members of a table; anything else has none. -/
def members : Value → Members
  | table members => members
  | _ => []

/-- The elements of a list; anything else has none. -/
def elements : Value → List Value
  | list elements => elements
  | _ => []

/-- Gives a member its value, in its place if there is one of that name. -/
def put (key : String) (value : Value) : Members → Members
  | [] => [(key, value)]
  | (name, old) :: others =>
    if name = key then (key, value) :: others else (name, old) :: put key value others

theorem lookup_put_self (key : String) (value : Value) (members : Members) :
    (put key value members).lookup key = some value := by
  induction members with
  | nil => simp [put]
  | cons member others ih =>
    obtain ⟨name, old⟩ := member
    by_cases h : name = key
    · simp [put, h]
    · have hk : (key == name) = false := by simpa using Ne.symm h
      simp [put, h, List.lookup_cons, hk, ih]

theorem lookup_put_of_ne {key other : String} (h : other ≠ key) (value : Value)
    (members : Members) : (put key value members).lookup other = members.lookup other := by
  induction members with
  | nil =>
    simp [put, h]
  | cons member others ih =>
    obtain ⟨name, old⟩ := member
    by_cases hn : name = key
    · subst hn
      have hk : (other == name) = false := by simpa using h
      simp [put, List.lookup_cons, hk]
    · simp [put, hn, List.lookup_cons, ih]

mutual

/-- Puts a value over the member `key`: the members of a table one by one over the members that are
there, any other value in place of what is there. -/
def layer (target : Members) (key : String) : Value → Members
  | table members =>
    let name := Text.lowercase key
    put name (layerAll ((target.lookup name).getD (table [])) members) target
  | value => put (Text.lowercase key) value target

/-- Puts the members of a table over a value, which becomes a table if it is none. -/
def layerAll (target : Value) : Members → Value
  | [] => target
  | (key, value) :: others => layerAll (table (layer target.members key value)) others

end

end Value

/-- One step into a configuration. -/
inductive Segment where
  /-- The member of that name. -/
  | key (name : String)
  /-- The element at that position, counted from the end if it is negative. -/
  | index (position : Int)
  deriving DecidableEq, Repr

namespace Segment

/-- The characters of a name in a path. -/
def namesWith (c : Char) : Bool :=
  c.isAlphanum || c = ' ' || c = '_' || c = '-'

/-- The position between brackets: an optional minus sign and digits, with spaces around them, for a
number of 64 bits. -/
def position? (s : List Char) : Option Int :=
  let inner := (((s.dropWhile isGap).reverse).dropWhile isGap).reverse
  let position := match inner with
    | '-' :: digits => if isNumber digits then some (-(Decimal.digitsValue digits : Int)) else none
    | digits => if isNumber digits then some (Decimal.digitsValue digits : Int) else none
  position.filter Decimal.inRange
where
  isGap (c : Char) : Bool := c = ' ' || c = '\t'
  isNumber (digits : List Char) : Bool := !digits.isEmpty && digits.all Char.isDigit

/-- Steps after the first: names behind points and positions in brackets. -/
def following? : List Char → Option (List Segment)
  | [] => some []
  | '.' :: s =>
    let name := s.takeWhile namesWith
    if name.isEmpty then none
    else (following? (s.drop name.length)).map (.key (String.ofList name) :: ·)
  | '[' :: s =>
    let inner := s.takeWhile (· ≠ ']')
    match s.drop inner.length, position? inner with
    | ']' :: _, some n => (following? (s.drop (inner.length + 1))).map (.index n :: ·)
    | _, _ => none
  | _ => none
termination_by s => s.length

/-- The steps of a path, which starts with a name. -/
def path? (text : String) : Option (List Segment) :=
  following? ('.' :: text.toList)

end Segment

namespace Value

/-- A position of a list of that length; a negative one counts from the end. -/
def place (length : Nat) (position : Int) : Nat :=
  if position < 0 then length - position.natAbs else position.toNat

/-- Gives an element of a list its value; the list grows by absent elements as needed. -/
def setAt (elements : List Value) (place : Nat) (value : Value) : List Value :=
  (elements ++ List.replicate (place + 1 - elements.length) absent).set place value

/-- Puts a value at a path of a table. Values on the way that cannot be stepped into are replaced by
empty tables or lists. -/
def assign (value : Value) : List Segment → Value → Value
  | [], target => target
  | [.key name], target => table (layer target.members name value)
  | [.index position], target =>
    list (setAt target.elements (place target.elements.length position) value)
  | .key name :: path, target =>
    let name := Text.lowercase name
    let inner := (target.members.lookup name).getD absent
    table (put name (assign value path inner) target.members)
  | .index position :: path, target =>
    let place := place target.elements.length position
    let inner := target.elements.getD place absent
    list (setAt target.elements place (assign value path inner))

end Value

end MessageGrammar.Config
