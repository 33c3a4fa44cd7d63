import GrammarCheck.Diagnostic.Basic
/-!
# Problems reported together

Any number of diagnostics, but at least one, reported as a single problem.
-/

namespace GrammarCheck

structure Problems where
  first : Diagnostic
  others : List Diagnostic
deriving DecidableEq, Repr

namespace Problems

def toList (problems : Problems) : List Diagnostic := problems.first :: problems.others

/-- The diagnostics as one problem, if there are any. -/
def ofList? : List Diagnostic → Option Problems
  | [] => none
  | first :: others => some { first, others }

def size (problems : Problems) : Nat := problems.toList.length

/-- The first message, and how many more there are. -/
def message (problems : Problems) : String :=
  match problems.others with
  | [] => problems.first.message
  | others => s!"{problems.first.message} (and {others.length} more errors)"

def check (diagnostics : List Diagnostic) : Except Problems Unit :=
  match ofList? diagnostics with
  | some problems => .error problems
  | none => .ok ()

end Problems

end GrammarCheck
