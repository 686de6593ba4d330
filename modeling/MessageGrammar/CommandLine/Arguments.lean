import MessageGrammar.Config.Settings

/-!
# Arguments

The command line names a command and its options. The options for the configuration file and the
output format stand before or behind the command's name; what stands behind it counts. An option has
its value behind an equals sign or in the next argument, one with a short name also in the same
argument. A text that starts with a minus sign stands behind two minus signs alone. An option occurs
at most once on each side of the command's name. The word `help` in place of a command asks for
usage, of one command if its name follows.
-/

namespace MessageGrammar.CommandLine

/-- The commands. -/
inductive Command where
  /-- Print the tokens of a message. -/
  | tokenize
  /-- Match a message with a grammar. -/
  | parse
  /-- List the grammars. -/
  | grammars
  deriving DecidableEq, Repr

/-- The command of that name. -/
def Command.ofName? : String → Option Command
  | "tokenize" => some tokenize
  | "parse" => some parse
  | "grammars" => some grammars
  | _ => none

/-- Number of texts behind a command. -/
def Command.arity : Command → Nat
  | tokenize => 1
  | parse => 1
  | grammars => 0

/-- Options with a value. -/
inductive ValueOption where
  /-- Path of a configuration file. -/
  | config
  /-- Name of the output format. -/
  | format
  /-- Name of a grammar. -/
  | grammar
  /-- Notation of a grammar. -/
  | written
  deriving DecidableEq, Repr

/-- The option with that long name, before a command or behind it. -/
def ValueOption.ofLong? (command : Option Command) (name : String) : Option ValueOption :=
  if name = "config" then some config
  else if name = "format" then some format
  else if command = some .parse ∧ name = "grammar" then some grammar
  else if command = some .parse ∧ name = "notation" then some written
  else none

/-- The option with that letter, before a command or behind it. -/
def ValueOption.ofShort? (command : Option Command) (letter : Char) : Option ValueOption :=
  if letter = 'c' then some config
  else if letter = 'f' then some format
  else if command = some .parse ∧ letter = 'g' then some grammar
  else if command = some .parse ∧ letter = 'n' then some written
  else none

/-- What one argument says. -/
inductive Argument where
  /-- A text or the name of a command. -/
  | word (text : String)
  /-- An option and its value. -/
  | value (option : ValueOption) (text : String)
  /-- Show all derivations. -/
  | explain
  /-- Show the version. -/
  | version
  /-- Show how the program is used. -/
  | help
  /-- Only texts follow. -/
  | separator
  deriving DecidableEq, Repr

namespace Argument

/-- The value of an option in the next argument, which must not look like an option itself. The
truth value says that the next argument is used up. -/
def valueBehind (option : ValueOption) : Option String → Option (Argument × Bool)
  | none => none
  | some next =>
    match next.toList with
    | '-' :: _ :: _ => none
    | _ => some (.value option next, true)

/-- What an argument with two minus signs says. -/
def ofLong (command : Option Command) (text : List Char) (next : Option String) :
    Option (Argument × Bool) :=
  let name := text.takeWhile (· ≠ '=')
  let attached := (text.drop name.length).tail?
  match ValueOption.ofLong? command (String.ofList name), attached with
  | some option, some text => some (.value option (String.ofList text), false)
  | some option, none => valueBehind option next
  | none, some _ => none
  | none, none =>
    if name = "help".toList then some (.help, false)
    else if command = none ∧ name = "version".toList then some (.version, false)
    else if command = some .parse ∧ name = "explain".toList then some (.explain, false)
    else none

/-- What an argument with one minus sign and a letter says. -/
def ofShort (command : Option Command) (letter : Char) (text : List Char)
    (next : Option String) : Option (Argument × Bool) :=
  match ValueOption.ofShort? command letter, text with
  | some option, '=' :: rest => some (.value option (String.ofList rest), false)
  | some option, [] => valueBehind option next
  | some option, rest => some (.value option (String.ofList rest), false)
  | none, _ =>
    if letter = 'h' then some (.help, false)
    else if command = none ∧ letter = 'V' then some (.version, false)
    else none

/-- What an argument says, before a command or behind it, and whether it uses up the next one. -/
def read (command : Option Command) (text : String) (next : Option String) :
    Option (Argument × Bool) :=
  match text.toList with
  | ['-', '-'] => some (.separator, false)
  | '-' :: '-' :: long => ofLong command long next
  | '-' :: letter :: rest => ofShort command letter rest next
  | _ => some (.word text, false)

end Argument

/-- The options and texts on one side of the command's name. -/
structure Options where
  /-- Path of a configuration file. -/
  config : Option String := none
  /-- The output format. -/
  format : Option OutputFormat := none
  /-- Name of a grammar. -/
  grammar : Option String := none
  /-- Notation of a grammar. -/
  written : Option String := none
  /-- Whether all derivations are shown. -/
  explain : Bool := false
  /-- The texts. -/
  words : List String := []
  deriving DecidableEq, Repr

namespace Options

/-- Adds an option, unless it is there already or has no such value. -/
def add (options : Options) (option : ValueOption) (value : String) : Option Options :=
  match option with
  | .config => if options.config.isSome then none else some { options with config := some value }
  | .format =>
    match options.format, OutputFormat.ofName? value with
    | none, some format => some { options with format := some format }
    | _, _ => none
  | .grammar =>
    if options.grammar.isSome then none else some { options with grammar := some value }
  | .written =>
    if options.written.isSome then none else some { options with written := some value }

/-- Adds texts, unless there are too many. -/
def addWords (options : Options) (arity : Nat) (words : List String) : Option Options :=
  if options.words.length + words.length ≤ arity then
    some { options with words := options.words ++ words }
  else none

end Options

/-- Which grammar a message is matched with. -/
inductive Choice where
  /-- The one the settings name. -/
  | preset
  /-- The one of that name. -/
  | named (name : String)
  /-- The one of that notation. -/
  | written (source : String)
  deriving DecidableEq, Repr

/-- What is to be done. -/
inductive Task where
  /-- Print the tokens of a message. -/
  | tokenize (text : String)
  /-- Match a message with a grammar, perhaps with all derivations. -/
  | parse (text : String) (choice : Choice) (explain : Bool)
  /-- List the grammars. -/
  | grammars
  deriving DecidableEq, Repr

/-- What the command line asks for. -/
inductive Request where
  /-- The version of the program. -/
  | version
  /-- How the program is used. -/
  | help
  /-- A task, with a configuration file and an output format if they are given. -/
  | run (config : Option String) (format : Option OutputFormat) (task : Task)
  deriving DecidableEq, Repr

namespace Request

/-- The task of a command with its options. -/
def task? (command : Command) (options : Options) : Option Task :=
  match command, options.words with
  | .tokenize, [text] => some (.tokenize text)
  | .parse, [text] =>
    match options.grammar, options.written with
    | some _, some _ => none
    | some name, none => some (.parse text (.named name) options.explain)
    | none, some source => some (.parse text (.written source) options.explain)
    | none, none => some (.parse text .preset options.explain)
  | .grammars, [] => some .grammars
  | _, _ => none

/-- The request of a command and the options before and behind its name. -/
def ofOptions (command : Command) (before behind : Options) : Option Request :=
  (task? command behind).map fun task =>
    .run (behind.config.or before.config) (behind.format.or before.format) task

/-- Reads the arguments behind the name of a command. -/
def behind (command : Command) (before options : Options) : List String → Option Request
  | [] => ofOptions command before options
  | text :: rest =>
    match Argument.read (some command) text rest.head? with
    | none => none
    | some (argument, usesNext) =>
      let rest := rest.drop (if usesNext then 1 else 0)
      match argument with
      | .word word => do behind command before (← options.addWords command.arity [word]) rest
      | .value option value => do behind command before (← options.add option value) rest
      | .explain =>
        if options.explain then none
        else behind command before { options with explain := true } rest
      | .separator => do ofOptions command before (← options.addWords command.arity rest)
      | .help => some .help
      | .version => some .version
termination_by args => args.length
decreasing_by all_goals (simp only [List.length_drop, List.length_cons]; omega)

/-- Whether usage can be shown for these words behind `help`: none, or the name of a command. -/
def isTopic : List String → Bool
  | [] => true
  | [name] => name = "help" || (Command.ofName? name).isSome
  | _ => false

/-- Reads all arguments; `none` if they do not say what is to be done. -/
def read (before : Options) : List String → Option Request
  | [] => none
  | text :: rest =>
    match Argument.read none text rest.head? with
    | none => none
    | some (argument, usesNext) =>
      let rest := rest.drop (if usesNext then 1 else 0)
      match argument with
      | .word "help" => if isTopic rest then some .help else none
      | .word name => do behind (← Command.ofName? name) before {} rest
      | .value option value => do read (← before.add option value) rest
      | .separator | .explain => none
      | .help => some .help
      | .version => some .version
termination_by args => args.length
decreasing_by all_goals (simp only [List.length_drop, List.length_cons]; omega)

/-- What some arguments ask for; `none` if they do not say what is to be done. -/
def ofArguments (arguments : List String) : Option Request :=
  read {} arguments

end Request

end MessageGrammar.CommandLine
