import MessageGrammar.Config.Document
import MessageGrammar.Text.Quoted

/-!
# Settings

The settings are what the defaults, some files and single values put over one another say: later
files win over earlier ones, and single values win over all files. Names are in lower case. A value
that is no text becomes one where a text is wanted, if it can. How the text of a file is read is left
open.
-/

namespace MessageGrammar

/-- How results are written. -/
inductive OutputFormat where
  /-- As lines of text. -/
  | text
  /-- As JSON. -/
  | json
  deriving DecidableEq, Repr, Inhabited

namespace OutputFormat

/-- Name of the format. -/
def name : OutputFormat → String
  | text => "text"
  | json => "json"

/-- The format of exactly that name. -/
def ofName? (name : String) : Option OutputFormat :=
  [text, json].find? (·.name = name)

end OutputFormat

/-- What the program can be set to. -/
structure Settings where
  /-- Name of the grammar that is used when none is named. -/
  defaultGrammar : String
  /-- How results are written. -/
  format : OutputFormat
  /-- Notations by name, in the order of their names. -/
  grammars : List (String × String)
  deriving Repr

/-- Why there are no settings. -/
inductive SettingsError where
  /-- The path of a single value is no path. -/
  | malformedPath (path : String)
  /-- A file is not there. -/
  | missingFile
  /-- The reader of files finds no members in a file. -/
  | malformedFile
  /-- A value has no text. -/
  | noText (key : String)
  /-- A value has not the form that its place asks for. -/
  | wrongForm (key : String)
  deriving DecidableEq, Repr

/-- The sentence that reports the error. -/
def SettingsError.message : SettingsError → String
  | malformedPath path => "malformed key path " ++ Text.quote path
  | missingFile => "configuration file not found"
  | malformedFile => "malformed configuration file"
  | noText key => "no text for key " ++ Text.quote key
  | wrongForm key => "unexpected value for key " ++ Text.quote key

namespace Settings

open Config

/-- The settings that hold where nothing else is said. -/
def defaults : Members :=
  [("parse", .table [("default_grammar", .text "demographics")]),
    ("output", .table [("format", .text "text")]),
    ("grammars", .table
      [("names", .text "Word[1:] % missing(\"name\")"),
        ("coarse", .text ("Word[1:] & Optional(Delimiter & " ++
          "(Number & Word) % missing(\"age and sex\"))")),
        ("demographics", .text ("Word[1:] % missing(\"name\") & " ++
          "Optional(Delimiter & Number % missing(\"age\") & Word % missing(\"sex\"))"))])]

/-- Puts the content of a file over what is there. A key that is a path leads to its place. -/
def addMembers (base : Value) : Members → Value
  | [] => base
  | (key, value) :: others =>
    let path := (Segment.path? key).getD [.key key]
    addMembers (Value.assign value path base) others

/-- Puts files over what is there, the last one on top. What a file holds is what `read` finds in its
text, which is nothing where the file is not well formed. -/
def addFiles (read : String → Option Members) (base : Value) :
    List (Option String) → Except SettingsError Value
  | [] => .ok base
  | none :: _ => .error .missingFile
  | some text :: files =>
    match read text with
    | none => .error .malformedFile
    | some members => addFiles read (addMembers base members) files

/-- The paths of single values, in the letters they are given in. -/
def paths : List (String × String) → Except SettingsError (List (List Segment × Value))
  | [] => .ok []
  | (key, text) :: others =>
    match Segment.path? key with
    | none => .error (.malformedPath key)
    | some path => (paths others).map ((path, .text text) :: ·)

/-- The only member a section has, by its name in a table or as the first element of a list. -/
def sectionMember (root : Members) (name key : String) : Except SettingsError Value :=
  match root.lookup name with
  | some (.table members) => (members.lookup key).elim (.error (.wrongForm name)) .ok
  | some (.list (value :: _)) => .ok value
  | _ => .error (.wrongForm name)

/-- The text of a value. -/
def textOf (key : String) (value : Value) : Except SettingsError String :=
  value.text?.elim (.error (.noText key)) .ok

/-- The format that a value names, without regard to case: a text, or a table with one member. -/
def formatOf (value : Value) : Except SettingsError OutputFormat :=
  let name := match value with
    | .text name => some name
    | .table [(name, _)] => some name
    | _ => none
  (name.bind fun name => OutputFormat.ofName? (Text.lowercase name)).elim
    (.error (.wrongForm "format")) .ok

/-- Puts a named notation into its place by name. -/
def insert (name source : String) : List (String × String) → List (String × String)
  | [] => [(name, source)]
  | (other, text) :: others =>
    if name < other then (name, source) :: (other, text) :: others
    else (other, text) :: insert name source others

/-- The notations that a table holds, by name. -/
def grammarsOf : Members → Except SettingsError (List (String × String))
  | [] => .ok []
  | (name, value) :: others => do
    let source ← textOf name value
    return insert name source (← grammarsOf others)

/-- The settings that a configuration says. -/
def ofMembers (root : Members) : Except SettingsError Settings := do
  let defaultGrammar ← textOf "default_grammar" (← sectionMember root "parse" "default_grammar")
  let format ← formatOf (← sectionMember root "output" "format")
  let grammars ← match root.lookup "grammars" with
    | some (.table members) => grammarsOf members
    | _ => .error (.wrongForm "grammars")
  return { defaultGrammar, format, grammars }

/-- The settings from the texts of some files, absent ones being missing, and from single values
with their paths. The files may be in any format: `read` finds their members. -/
def loadWith (read : String → Option Members) (files : List (Option String))
    (values : List (String × String)) : Except SettingsError Settings := do
  let values ← paths values
  let base ← addFiles read (.table defaults) files
  let root := values.foldl (fun root (path, value) => Value.assign value path root) base
  ofMembers root.members

/-- The settings from files that keep to the part of the format that `Document.read?` reads. A file
that goes beyond it counts as malformed. -/
def load (files : List (Option String)) (values : List (String × String)) :
    Except SettingsError Settings :=
  loadWith Document.read? files values

/-- The notation of that name. -/
def grammar? (settings : Settings) (name : String) : Option String :=
  settings.grammars.lookup name

end Settings

end MessageGrammar
