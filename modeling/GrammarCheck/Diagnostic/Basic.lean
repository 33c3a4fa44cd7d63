import GrammarCheck.Token.Basic
/-!
# Diagnostics

What can be wrong with a grammar. Reading it finds syntax problems, and verifying it finds problems
with how its productions refer to each other.
-/

namespace GrammarCheck

/-- A problem found in a grammar. Tokens are given by their descriptions. -/
inductive Diagnostic where
  /-- One kind of token was needed and another was found. -/
  | unexpected (position : Position) (expected found : String)
  /-- A sequence without terms ends at a token. -/
  | emptySequence (position : Position) (found : String)
  /-- A production has the name of an earlier one. -/
  | duplicateProduction (name : String) (line previousLine : Nat)
  /-- Tokens follow the end of input. -/
  | trailingTokens (position : Position) (count : Nat) (found : String)
  /-- The production to start from is not defined. -/
  | noStartProduction (name : String)
  /-- A name refers to no production. -/
  | missingProduction (name : String) (position : Position)
  /-- A production is not used, directly or indirectly, by the start production. -/
  | unreachable (name : String) (line : Nat)
  /-- A production named by a non-terminal refers to a name that is a terminal. -/
  | nonLexicalReference (name : String) (position : Position)
deriving DecidableEq, Repr

namespace Diagnostic

/-- A token of another kind was found than the one needed. -/
def unexpectedToken (expected : String) (found : Token) : Diagnostic :=
  .unexpected found.position expected found.description

/-- A sequence without terms ends at the given token. -/
def emptySequenceBefore (found : Token) : Diagnostic :=
  .emptySequence found.position found.description

/-- Whether the problem is found by reading, and not by verifying. -/
def isSyntax : Diagnostic → Bool
  | .unexpected .. | .emptySequence .. | .duplicateProduction .. | .trailingTokens .. => true
  | .noStartProduction .. | .missingProduction .. | .unreachable .. | .nonLexicalReference .. => false

/-- The problem in words, on one line as long as names and descriptions are. -/
def message : Diagnostic → String
  | .unexpected position expected found => s!"{position.render}: expected {expected}, found {found}"
  | .emptySequence position found => s!"{position.render}: term expected, found {found}"
  | .duplicateProduction name line previousLine => s!"{line}: {name}: defined line {previousLine}"
  | .trailingTokens position count found =>
    s!"{position.render}: {count} unconsumed tokens after end of input, first {found}"
  | .noStartProduction name => s!"no start production {Quoted.quote name}"
  | .missingProduction name position => s!"{position.render}: missing production {Quoted.quote name}"
  | .unreachable name line => s!"{line}: {Quoted.quote name} is unreachable"
  | .nonLexicalReference name position =>
    s!"{position.render}: reference to non-lexical production {Quoted.quote name}"

end Diagnostic

end GrammarCheck
