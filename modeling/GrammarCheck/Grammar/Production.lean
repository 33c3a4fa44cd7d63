import GrammarCheck.Grammar.Expression
/-!
# Productions

A production gives a name to an expression, or to nothing at all.
-/

namespace GrammarCheck

/-- A rule. The right-hand side may be empty. -/
structure Production where
  name : Token
  expression : Option Expression
deriving DecidableEq, Repr

namespace Production

/-- The names and problems of the right-hand side, from left to right. -/
def occurrences (production : Production) : List Expression.Occurrence :=
  match production.expression with
  | some expression => expression.occurrences
  | none => []

def render (production : Production) : String :=
  match production.expression with
  | some expression => s!"{production.name.spelling} = {expression.render} ."
  | none => s!"{production.name.spelling} = ."

end Production

end GrammarCheck
