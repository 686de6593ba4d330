import MessageGrammar.CommandLine.Arguments
import MessageGrammar.Grammar.Builtin
import MessageGrammar.Grammar.Printer
import MessageGrammar.Message

/-!
# Reports

What the program writes and its exit code. A match has the code 0, a missing field 2, no match 3,
arguments that ask for nothing 2, and any other error 1.
-/

namespace MessageGrammar.CommandLine

/-- The result of a run of the program. -/
structure Report where
  /-- Exit code. -/
  code : UInt32
  /-- Text for the standard output. -/
  output : String
  /-- Text for the standard error output. -/
  errors : String
  deriving DecidableEq, Repr

/-- Name and version of the program. -/
def versionText : String :=
  "wametuelewa 0.2.0\n"

/-- How the program is used. -/
def usageText : String :=
  "Usage: wametuelewa [--config FILE] [--format text|json] COMMAND\n\n" ++
  "  tokenize TEXT                                 Print the tokens of a message\n" ++
  "  parse TEXT [--grammar NAME | --notation TEXT] [--explain]\n" ++
  "                                                Match a message with a grammar\n" ++
  "  grammars                                      List the grammars\n"

namespace Report

/-- A run without errors. -/
def success (output : String) : Report :=
  ⟨0, output, ""⟩

/-- A run that ends with an error. -/
def failure (message : String) : Report :=
  ⟨1, "", "Error: " ++ message ++ "\n"⟩

end Report

/-- Lines, each with its end. -/
def lines (texts : List String) : String :=
  String.join (texts.map (· ++ "\n"))

/-- The tokens of a message. -/
def tokenizeReport (format : OutputFormat) (text : String) : Report :=
  match tokenize text with
  | .error e => .failure e.message
  | .ok tokens =>
    match format with
    | .text => .success (lines (tokens.map Token.text))
    | .json => .success ((Json.array (tokens.map Token.json)).pretty ++ "\n")

/-- The grammar that is chosen: by its notation, or by a name in the settings, or by a built-in
name. -/
def chosenGrammar (settings : Settings) (choice : Choice) : Except String Grammar :=
  match choice with
  | .written source => (Grammar.compile source).mapError NotationError.message
  | .named name => byName name
  | .preset => byName settings.defaultGrammar
where
  byName (name : String) : Except String Grammar :=
    match settings.grammar? name with
    | some source =>
      (Grammar.compile source).mapError fun e => "grammar `" ++ name ++ "`: " ++ e.message
    | none =>
      (Grammar.Builtin.byName? name).elim (.error ("Unknown grammar `" ++ name ++ "`")) .ok

/-- All complete derivations, one on a line. -/
def derivationLines (derivations : List Derivation) : List String :=
  (toString derivations.length ++ " complete derivation(s)") ::
    derivations.zipIdx.map fun (derivation, n) =>
      "  [" ++ toString n ++ "] " ++ ", ".intercalate (derivation.items.map Item.text)

/-- An outcome in an output format. -/
def outcomeText (format : OutputFormat) (outcome : Outcome) : String :=
  match format, outcome with
  | .json, outcome => outcome.json.pretty
  | .text, .matched items => "match: " ++ (Outcome.matched items).text
  | .text, .diagnostic d => "missing: " ++ d.label
  | .text, .noMatch => "no match"

/-- The exit code of an outcome. -/
def outcomeCode : Outcome → UInt32
  | .matched _ => 0
  | .diagnostic _ => 2
  | .noMatch => 3

/-- The outcome of a message, with all derivations if they are asked for. -/
def parseReport (settings : Settings) (format : OutputFormat) (text : String) (choice : Choice)
    (explain : Bool) : Report :=
  match chosenGrammar settings choice with
  | .error message => .failure message
  | .ok grammar =>
    match tokenize text with
    | .error e => .failure e.message
    | .ok tokens =>
      let outcome := grammar.parse tokens
      { code := outcomeCode outcome
        output := outcomeText format outcome ++ "\n"
        errors := if explain then lines (derivationLines (grammar.explain tokens)) else "" }

/-- The grammars of the settings and the built-in ones. -/
def grammarsReport (settings : Settings) : Report :=
  let configured := settings.grammars.flatMap fun (name, source) =>
    let marker := if name = settings.defaultGrammar then " (default)" else ""
    ["  " ++ name ++ marker, "    " ++ source]
  let builtin := Grammar.Builtin.table.flatMap fun (name, grammar) =>
    ["  " ++ name, "    " ++ grammar.text]
  .success (lines (["Configured grammars:", ""] ++ configured ++
    ["", "Built-in grammars:", ""] ++ builtin))

/-- The report of a task under settings. -/
def Task.report (settings : Settings) (format : OutputFormat) : Task → Report
  | tokenize text => tokenizeReport format text
  | parse text choice explain => parseReport settings format text choice explain
  | grammars => grammarsReport settings

namespace Request

/-- Path of the configuration file that a request needs. -/
def config? : Option Request → Option String
  | some (run config _ _) => config
  | _ => none

/-- The report of a request, given the text of its configuration file. -/
def report (content : Option String) : Option Request → Report
  | none => ⟨2, "", usageText⟩
  | some version => .success versionText
  | some help => .success usageText
  | some (run config format task) =>
    let files := if config.isSome then [content] else []
    let values := (format.map fun format => ("output.format", format.name)).toList
    match Settings.load files values with
    | .error e => .failure ("Invalid configuration: " ++ e.message)
    | .ok settings => task.report settings settings.format

end Request

/-- The report for some arguments, given how files are read. -/
def run (readFile : String → Option String) (arguments : List String) : Report :=
  let request := Request.ofArguments arguments
  Request.report ((Request.config? request).bind readFile) request

end MessageGrammar.CommandLine
