import GrammarCheck.Proofs.Reading.View
import GrammarCheck.Proofs.Syntax.Parts

/-!
# Tokens that a production keeps

A production keeps the token that names it and the tokens of its right-hand side: those of names and
literals, those that open brackets, and those found where a term was missing. The leftmost token of an
expression is the first one that it keeps.
-/

namespace GrammarCheck

namespace Expression

/-- The token that the expression keeps besides those of its parts. -/
def ownToken? : Expression → Option Token
  | .alternative _ | .sequence _ => none
  | .name token | .literal token | .enclosed _ token _ | .malformed token _ => some token

/-- The tokens kept in the expression. A token that opens a bracket comes before those of the body. -/
def storedTokens (expression : Expression) : List Token := expression.parts.filterMap ownToken?

variable {expression : Expression} {leaves : Leaves} {level : Level}

theorem storedTokens_enclosed (bracket : Bracket) (opening : Token) (body : Expression) :
    (Expression.enclosed bracket opening body).storedTokens = opening :: body.storedTokens := by
  rw [storedTokens, parts, List.filterMap_cons]
  rfl

theorem filterMap_ownToken?_partsAll (expressions : List Expression) :
    (partsAll expressions).filterMap ownToken? = expressions.flatMap storedTokens := by
  rw [partsAll_eq_flatMap, List.filterMap_flatMap]
  rfl

theorem storedTokens_alternative (branches : List Expression) :
    (Expression.alternative branches).storedTokens = branches.flatMap storedTokens := by
  rw [storedTokens, parts, List.filterMap_cons]
  exact filterMap_ownToken?_partsAll branches

theorem storedTokens_sequence (terms : List Expression) :
    (Expression.sequence terms).storedTokens = terms.flatMap storedTokens := by
  rw [storedTokens, parts, List.filterMap_cons]
  exact filterMap_ownToken?_partsAll terms

def tokenView : View Token := ⟨storedTokens, storedTokens_alternative, storedTokens_sequence⟩

/-- By induction on the shape, in which no list is empty. -/
theorem Shaped.exists_storedTokens_eq_cons (hshaped : expression.Shaped leaves level) :
    ∃ first rest, expression.firstToken? = some first ∧ expression.storedTokens = first :: rest := by
  induction hshaped with
  | @name level token _ => exact ⟨token, [], rfl, rfl⟩
  | @literal level token _ => exact ⟨token, [], rfl, rfl⟩
  | @enclosed level bracket opening body _ _ _ =>
    exact ⟨opening, body.storedTokens, rfl, storedTokens_enclosed bracket opening body⟩
  | @malformed level found problem _ _ => exact ⟨found, [], rfl, rfl⟩
  | @sequence level terms _ hlength _ ih =>
    obtain ⟨term, others, rfl⟩ := List.exists_cons_of_length_pos (Nat.lt_of_lt_of_le Nat.two_pos hlength)
    obtain ⟨first, rest, hfirst, hstored⟩ := ih term List.mem_cons_self
    refine ⟨first, rest ++ others.flatMap storedTokens, hfirst, ?_⟩
    rw [storedTokens_sequence, List.flatMap_cons, hstored, List.cons_append]
  | @alternative branches hlength _ ih =>
    obtain ⟨branch, others, rfl⟩ := List.exists_cons_of_length_pos (Nat.lt_of_lt_of_le Nat.two_pos hlength)
    obtain ⟨first, rest, hfirst, hstored⟩ := ih branch List.mem_cons_self
    refine ⟨first, rest ++ others.flatMap storedTokens, hfirst, ?_⟩
    rw [storedTokens_alternative, List.flatMap_cons, hstored, List.cons_append]

end Expression

namespace Production

/-- The tokens kept in the production, the name first. -/
def storedTokens (production : Production) : List Token :=
  production.name :: production.expression.elim [] Expression.storedTokens

end Production

end GrammarCheck
