import GrammarCheck.Diagnostic.Problems
import GrammarCheck.Grammar.Basic
import GrammarCheck.Reading.Phase
import GrammarCheck.Token.Scanner
/-!
# Reading grammars

Reading never stops at a problem: the grammar holds what could be read, and the diagnostics say what
is wrong with the rest. The first production of a name is kept and later ones are reported.
-/

namespace GrammarCheck

structure Reading where
  grammar : Grammar
  /-- The productions of the grammar in the order of the source. -/
  definitions : List Production
  diagnostics : List Diagnostic
deriving DecidableEq

namespace Reading

def report (diagnostic : Diagnostic) (reading : Reading) : Reading :=
  { reading with diagnostics := diagnostic :: reading.diagnostics }

def define (production : Production) (reading : Reading) : Reading :=
  { reading with definitions := production :: reading.definitions }

/-- Adds to a grammar what events bring. A production is left out if its name is no non-terminal,
which has been reported as an event of its own, or if the grammar has one of that name. -/
def ofEvents (grammar : Grammar) : List Event → Reading
  | [] => { grammar, definitions := [], diagnostics := [] }
  | .problem problem :: rest => report problem (ofEvents grammar rest)
  | .production production :: rest =>
    if production.name.kind = .nonTerminal then
      match grammar.find? production.name.spelling with
      | some previous =>
        report (.duplicateProduction production.name.spelling production.name.line previous.name.line)
          (ofEvents grammar rest)
      | none => define production (ofEvents (grammar.insert production.name.spelling production) rest)
    else ofEvents grammar rest

/-- The problem with tokens that follow the end of input, if there are any. -/
def trailingProblems : List Token → List Diagnostic
  | [] => []
  | first :: rest => [.trailingTokens first.position (rest.length + 1) first.description]

/-- Reads the tokens up to the end of input. -/
def ofTokens (tokens : List Token) : Reading :=
  let stream := TokenStream.ofTokens tokens
  let reading := ofEvents .empty stream.events
  { reading with diagnostics := reading.diagnostics ++ trailingProblems stream.trailing }

def ofSource (source : List UInt8) : Reading := ofTokens (scan source)

end Reading

/-- Reads a text that has to be free of problems. -/
def Grammar.ofText? (text : String) : Except Problems Grammar :=
  let reading := Reading.ofSource (Utf8.encode text)
  (Problems.check reading.diagnostics).map fun _ => reading.grammar

end GrammarCheck
