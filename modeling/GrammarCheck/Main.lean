import GrammarCheck.CommandLine.Outcome
/-!
# The program

Reads the file that the arguments name and writes the outcome.
-/

namespace GrammarCheck.CommandLine

/-- The failure that the system describes. Some of its codes are negative and in two's complement. -/
def ReadFailure.ofDetails (code : UInt32) (details : String) : ReadFailure :=
  ⟨details.capitalize, if code < 0x80000000 then code.toNat else (0 - code).toNat⟩

/-- The failure that an error stands for. -/
def ReadFailure.ofError : IO.Error → ReadFailure
  | .noFileOrDirectory _ code details => .ofDetails code details
  | .inappropriateType _ code details => .ofDetails code details
  | .permissionDenied _ code details => .ofDetails code details
  | .invalidArgument _ code details => .ofDetails code details
  | .otherError code details => .ofDetails code details
  | error => .ofDetails 0 (toString error)

def readWhole (file : String) : IO (Except ReadFailure (List UInt8)) := do
  try
    return .ok (← IO.FS.readBinFile file).toList
  catch error =>
    return .error (.ofError error)

/-- Runs the program with arguments and gives its exit code. -/
def run (arguments : List String) : IO UInt32 := do
  let outcome ← match Invocation.ofArguments? arguments with
    | .error stop => pure (Outcome.ofStop stop)
    | .ok invocation => Outcome.ofInvocation invocation <$> readWhole invocation.command.file
  (← IO.getStdout).putStr outcome.stdout
  (← IO.getStderr).putStr outcome.stderr
  return outcome.code.toUInt32

end GrammarCheck.CommandLine

def main (arguments : List String) : IO UInt32 := GrammarCheck.CommandLine.run arguments
