import GrammarCheck.Reading.Basic
import GrammarCheck.Verification.Basic
/-!
# Log records

What scanning, reading and verifying have to tell, apart from their results.
-/

namespace GrammarCheck.CommandLine

/-- How much detail a record is. -/
inductive Severity where
  | info
  | debug
  | trace
deriving DecidableEq, Repr

def Severity.label : Severity → String
  | .info => "info"
  | .debug => "debug"
  | .trace => "trace"

/-- How often more logging has to be asked for before records of the severity show. -/
def Severity.threshold : Severity → Nat
  | .info => 1
  | .debug => 2
  | .trace => 3

/-- Something to tell, and the part of the program that tells it. -/
structure LogRecord where
  severity : Severity
  target : String
  text : String
deriving DecidableEq, Repr

namespace LogRecord

/-- The record on a line of its own. -/
def render (record : LogRecord) : String := s!"[{record.severity.label}] {record.target}: {record.text}\n"

/-- The text of the records that show. -/
def renderAll (verbosity : Nat) (records : List LogRecord) : String :=
  String.join ((records.filter fun record => record.severity.threshold ≤ verbosity).map render)

def ofTokens (tokens : List Token) : List LogRecord :=
  (tokens.filter (!·.isEndOfInput)).map fun token =>
    ⟨.trace, "ebnf::scanner", s!"scanned {token.render} at {token.position.render}"⟩

/-- Every production as it is read, and a count. -/
def ofReading (reading : Reading) : List LogRecord :=
  reading.definitions.map (fun production =>
    ⟨.debug, "ebnf::parser", s!"production {production.name.spelling} at line {production.name.line}"⟩) ++
  [⟨.debug, "ebnf::parser",
    s!"parsed {reading.grammar.size} productions with {reading.diagnostics.length} errors"⟩]

/-- Every production as it is visited, and a count. -/
def ofVerifying (grammar : Grammar) (start : String) : List LogRecord :=
  let visited := (grammar.search start).visited
  let count := s!"verified {visited.length} of {grammar.size} productions"
  visited.map (fun entry => ⟨.debug, "ebnf::verify", s!"visiting {entry.2.name.spelling}"⟩) ++
  [⟨.debug, "ebnf::verify",
    s!"{count} from {Quoted.quote start} with {(grammar.verify start).length} errors"⟩]

def ofSound (file : String) (grammar : Grammar) (start : String) : LogRecord :=
  ⟨.info, "ebnfcheck", s!"{file}: {grammar.size} productions reachable from {Quoted.quote start}"⟩

end LogRecord

end GrammarCheck.CommandLine
