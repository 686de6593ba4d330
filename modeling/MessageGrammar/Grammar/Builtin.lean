import MessageGrammar.Grammar.Basic

/-!
# Built-in grammars

Ready-made grammars for short messages about a person: a name, perhaps followed by a delimiter, the
age and the sex.
-/

namespace MessageGrammar.Grammar.Builtin

/-- Two words, a delimiter, a number and a word. -/
def simple : Grammar :=
  word.times 2 &&& delimiter &&& number &&& word

/-- Names, perhaps followed by age and sex. -/
def optionalTail : Grammar :=
  word.many &&& (delimiter &&& number &&& word).optional

/-- Names, and age and sex with one diagnostic for both. -/
def coarse : Grammar :=
  word.many &&& (delimiter &&& (number &&& word).orMissing "age and sex").optional

/-- Name, age and sex, each with a diagnostic of its own. -/
def demographics : Grammar :=
  word.many.orMissing "name" &&&
    (delimiter &&& number.orMissing "age" &&& word.orMissing "sex").optional

/-- As `demographics`, with an age alone in a last clause. -/
def demographicsMultipath : Grammar :=
  word.many.orMissing "name" &&&
    (delimiter &&& number.orMissing "age" &&& word.orMissing "sex").optional &&&
    (delimiter &&& number.orMissing "age").optional

/-- As `demographics`, with the tokens in named fields. -/
def taggedDemographics : Grammar :=
  (word.many.tagged "name").orMissing "name" &&&
    (delimiter &&& (number.tagged "age").orMissing "age" &&&
      (word.tagged "sex").orMissing "sex").optional

/-- The built-in grammars by name. -/
def table : List (String × Grammar) :=
  [("simple", simple), ("optional-tail", optionalTail), ("coarse", coarse),
    ("demographics", demographics), ("demographics-multipath", demographicsMultipath),
    ("tagged-demographics", taggedDemographics)]

/-- The names of the built-in grammars. -/
def names : List String :=
  table.map Prod.fst

/-- The built-in grammar of that name. -/
def byName? (name : String) : Option Grammar :=
  table.lookup name

end MessageGrammar.Grammar.Builtin
