import GrammarCheck.CommandLine.Arguments
import GrammarCheck.CommandLine.Log
/-!
# Outcomes

What a run of the program writes and the code it exits with, as a function of its arguments and of
what reading files gives.
-/

namespace GrammarCheck.CommandLine

/-- Why a file cannot be read. -/
structure ReadFailure where
  reason : String
  code : Nat
deriving DecidableEq, Repr

namespace ReadFailure

def notFound : ReadFailure := ⟨"No such file or directory", 2⟩

def notADirectory : ReadFailure := ⟨"Not a directory", 20⟩

def isADirectory : ReadFailure := ⟨"Is a directory", 21⟩

def message (failure : ReadFailure) : String := s!"{failure.reason} (os error {failure.code})"

end ReadFailure

/-- What a run of the program writes, and its exit code. -/
structure Outcome where
  code : Nat
  stdout : String
  stderr : String
deriving DecidableEq, Repr

namespace Outcome

def success (stdout : String) (log : String) : Outcome := { code := 0, stdout, stderr := log }

/-- The run fails with an error message after the log. -/
def failure (stdout : String) (log : String) (message : String) : Outcome :=
  { code := 1, stdout, stderr := log ++ s!"Error: {message}\n" }

def unreadable (file : String) (reason : ReadFailure) : Outcome :=
  failure "" "" s!"failed to read {file}\n\nCaused by:\n    {reason.message}"

/-- One line for each problem that a stage found in a file. -/
def stageLines (stage file : String) (problems : Problems) : String :=
  String.join (problems.toList.map fun diagnostic => s!"{stage}({file}) failed: {diagnostic.message}\n")

/-- A stage found problems in a file. -/
def stageFailure (stage file : String) (log : String) (problems : Problems) : Outcome :=
  failure (stageLines stage file problems) log problems.message

/-- What a command does with the contents of its file. A grammar is verified or printed only if reading
it finds no problems. -/
def ofContents (invocation : Invocation) (source : List UInt8) : Outcome :=
  let log := LogRecord.renderAll invocation.verbosity
  let scanning := LogRecord.ofTokens (scan source)
  let reading := Reading.ofSource source
  let readingLog := scanning ++ LogRecord.ofReading reading
  match invocation.command with
  | .tokens _ =>
    let lines := (scan source).map fun token => s!"{token.position.render}: {token.render}\n"
    success (String.join lines) (log scanning)
  | .format file =>
    match Problems.ofList? reading.diagnostics with
    | some problems => stageFailure "Parse" file (log readingLog) problems
    | none => success reading.grammar.render (log readingLog)
  | .check file start =>
    match Problems.ofList? reading.diagnostics with
    | some problems => stageFailure "Parse" file (log readingLog) problems
    | none =>
      let verifyingLog := readingLog ++ LogRecord.ofVerifying reading.grammar start
      match Problems.ofList? (reading.grammar.verify start) with
      | some problems => stageFailure "Verify" file (log verifyingLog) problems
      | none => success "" (log (verifyingLog ++ [.ofSound file reading.grammar start]))

def usageText : String :=
  "Usage: ebnfcheck [-v]... check FILE [--start NAME]\n" ++
  "       ebnfcheck [-v]... tokens FILE\n" ++
  "       ebnfcheck [-v]... format FILE\n"

/-- The outcome when the arguments ask for no command. -/
def ofStop : Stop → Outcome
  | .version => success "ebnfcheck 0.1.0\n" ""
  | .help => success usageText ""
  | .usage => { code := 2, stdout := "", stderr := usageText }

/-- The outcome of a command, given what reading its file gives. -/
def ofInvocation (invocation : Invocation) : Except ReadFailure (List UInt8) → Outcome
  | .error reason => unreadable invocation.command.file reason
  | .ok source => ofContents invocation source

/-- The outcome for arguments, given what reading files gives. -/
def ofArguments (arguments : List String) (read : String → Except ReadFailure (List UInt8)) : Outcome :=
  match Invocation.ofArguments? arguments with
  | .error stop => ofStop stop
  | .ok invocation => ofInvocation invocation (read invocation.command.file)

end Outcome

end GrammarCheck.CommandLine
