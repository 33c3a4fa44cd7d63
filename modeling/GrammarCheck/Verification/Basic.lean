import GrammarCheck.Diagnostic.Problems
import GrammarCheck.Verification.Search
/-!
# Verifying grammars

A grammar is sound from a start production if every name that can be reached refers to a production,
every production can be reached, and productions named by non-terminals refer to non-terminals only.
-/

namespace GrammarCheck

namespace Production

/-- The problems with one name or problem in the right-hand side. -/
def findingsAt (production : Production) (grammar : Grammar) : Expression.Occurrence → List Diagnostic
  | .reference token =>
    (if grammar.contains token.spelling then [] else [.missingProduction token.spelling token.position]) ++
      (if production.name.kind = .nonTerminal ∧ token.kind = .terminal then
        [.nonLexicalReference token.spelling token.position]
      else [])
  | .problem problem => [problem]

/-- The problems with the right-hand side, from left to right. -/
def findings (production : Production) (grammar : Grammar) : List Diagnostic :=
  production.occurrences.flatMap (production.findingsAt grammar)

end Production

namespace Grammar

/-- The problems of a grammar: those of the productions that can be reached from the start, in the
order of the search, and then the productions that cannot, in the order of their keys. -/
def verify (grammar : Grammar) (start : String) : List Diagnostic :=
  if grammar.contains start then
    let search := grammar.search start
    search.visited.flatMap (fun entry => entry.2.findings grammar) ++
      search.unreached.entries.map (fun entry => .unreachable entry.1 entry.2.name.line)
  else [.noStartProduction start]

def check (grammar : Grammar) (start : String) : Except Problems Unit :=
  Problems.check (grammar.verify start)

end Grammar

end GrammarCheck
