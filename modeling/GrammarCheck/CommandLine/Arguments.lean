/-!
# Arguments

What a user can ask for on the command line: a command on one file, and how much to log. Options may
stand before or after the file, short ones may be joined, and after `--` every word names a file.
-/

namespace GrammarCheck.CommandLine

/-- What to do with a file. -/
inductive Command where
  | check (file start : String)
  | tokens (file : String)
  | format (file : String)
deriving DecidableEq, Repr

def Command.file : Command → String
  | .check file _ | .tokens file | .format file => file

/-- A command and how much to log. -/
structure Invocation where
  verbosity : Nat
  command : Command
deriving DecidableEq, Repr

/-- Why arguments ask for no command. -/
inductive Stop where
  | version
  | help
  | usage
deriving DecidableEq, Repr

/-! ### Words -/

/-- The forms of a word on the command line. -/
inductive Word where
  /-- `--`, after which words are no options. -/
  | separator
  /-- An option with two dashes, and the value after its first equals sign. -/
  | long (name : String) (value : Option String)
  /-- One or more options behind a single dash. -/
  | short (options : List Char)
  /-- Anything else, a dash on its own included. -/
  | plain (text : String)
deriving DecidableEq, Repr

def Word.ofString (text : String) : Word :=
  match text.toList with
  | ['-', '-'] => .separator
  | '-' :: '-' :: option =>
    let value := match option.dropWhile (· != '=') with
      | _ :: value => some (String.ofList value)
      | [] => none
    .long (String.ofList (option.takeWhile (· != '='))) value
  | '-' :: option :: options => .short (option :: options)
  | _ => .plain text

/-! ### Words after the command -/

inductive Action where
  | check
  | tokens
  | format
deriving DecidableEq, Repr

def Action.ofName? : String → Option Action
  | "check" => some .check
  | "tokens" => some .tokens
  | "format" => some .format
  | _ => none

/-- What the words after the command have said so far. -/
structure Options where
  action : Action
  verbosity : Nat
  file : Option String
  start : Option String
  /-- Whether the next word has to be the start production. -/
  awaitsStart : Bool
  /-- Whether every further word names a file. -/
  separated : Bool
deriving DecidableEq, Repr

namespace Options

def ofAction (action : Action) : Options :=
  { action, verbosity := 0, file := none, start := none, awaitsStart := false, separated := false }

/-- A word that names a file. There is exactly one, and it is not empty. -/
def takeFile (options : Options) (file : String) : Except Stop Options :=
  if options.file.isNone ∧ file ≠ "" then .ok { options with file := some file } else .error .usage

/-- The start production, which only a check has, and only once. -/
def takeStart (options : Options) (start : String) : Except Stop Options :=
  if options.action = .check ∧ options.start.isNone then
    .ok { options with start := some start, awaitsStart := false }
  else .error .usage

def awaitStart (options : Options) : Except Stop Options :=
  if options.action = .check then .ok { options with awaitsStart := true } else .error .usage

/-- Options behind a single dash. The start production may follow its option right away or after an
equals sign. -/
def takeShort (options : Options) : List Char → Except Stop Options
  | [] => .ok options
  | 'v' :: rest => takeShort { options with verbosity := options.verbosity + 1 } rest
  | ['s'] => options.awaitStart
  | 's' :: '=' :: start => options.takeStart (String.ofList start)
  | 's' :: start => options.takeStart (String.ofList start)
  | 'h' :: _ => .error .help
  | _ => .error .usage

def take (options : Options) (text : String) : Except Stop Options :=
  if options.separated then options.takeFile text
  else match Word.ofString text with
    | .plain text => if options.awaitsStart then options.takeStart text else options.takeFile text
    | .separator => if options.awaitsStart then .error .usage else .ok { options with separated := true }
    | .short characters => if options.awaitsStart then .error .usage else options.takeShort characters
    | .long name value =>
      if options.awaitsStart then .error .usage
      else match name, value with
        | "verbose", none => .ok { options with verbosity := options.verbosity + 1 }
        | "start", some start => options.takeStart start
        | "start", none => options.awaitStart
        | "help", none => .error .help
        | _, _ => .error .usage

/-- The command that the options amount to. The start production is `program` unless one is given. -/
def command (options : Options) : Except Stop Command :=
  match options.file with
  | some file =>
    if options.awaitsStart then .error .usage
    else match options.action with
      | .check => .ok (.check file (options.start.getD "program"))
      | .tokens => .ok (.tokens file)
      | .format => .ok (.format file)
  | none => .error .usage

end Options

/-! ### Words before the command -/

/-- How often options behind a single dash, before the command, ask for more logging. -/
def countVerbose : List Char → Except Stop Nat
  | [] => .ok 0
  | 'v' :: rest => (countVerbose rest).map (· + 1)
  | 'V' :: _ => .error .version
  | 'h' :: _ => .error .help
  | _ => .error .usage

/-- Reads arguments, of which some before them have asked for more logging. If words after the command
ask for it too, those before it do not count. -/
def Invocation.ofWords? (verbosity : Nat) : List String → Except Stop Invocation
  | [] => .error .usage
  | word :: rest =>
    match Word.ofString word with
    | .plain name =>
      match Action.ofName? name with
      | some action => do
        let options ← rest.foldlM Options.take (Options.ofAction action)
        let command ← options.command
        return { verbosity := if options.verbosity = 0 then verbosity else options.verbosity, command }
      | none => .error (if name = "help" then .help else .usage)
    | .short characters => do Invocation.ofWords? (verbosity + (← countVerbose characters)) rest
    | .long "verbose" none => Invocation.ofWords? (verbosity + 1) rest
    | .long "version" none => .error .version
    | .long "help" none => .error .help
    | .long .. | .separator => .error .usage

def Invocation.ofArguments? (arguments : List String) : Except Stop Invocation :=
  Invocation.ofWords? 0 arguments

end GrammarCheck.CommandLine
