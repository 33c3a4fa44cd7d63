import GrammarCheck.Proofs.Syntax.Tree

/-!
# The parts of an expression

An expression and all the expressions inside of it. Each part of an expression that has a shape has
one itself, and it has a leftmost token, since no list in it is empty.
-/

namespace GrammarCheck.Expression

mutual

/-- The expression itself and what stands in it at any depth, from left to right. -/
def parts : Expression → List Expression
  | .alternative branches => .alternative branches :: partsAll branches
  | .sequence terms => .sequence terms :: partsAll terms
  | .name token => [.name token]
  | .literal token => [.literal token]
  | .enclosed bracket opening body => .enclosed bracket opening body :: body.parts
  | .malformed found problem => [.malformed found problem]

def partsAll : List Expression → List Expression
  | [] => []
  | expression :: rest => expression.parts ++ partsAll rest

end

variable {expression part : Expression}

theorem partsAll_eq_flatMap (expressions : List Expression) : partsAll expressions = expressions.flatMap parts := by
  induction expressions with
  | nil => rfl
  | cons expression rest ih => rw [partsAll, ih, List.flatMap_cons]

theorem mem_parts_self (expression : Expression) : expression ∈ expression.parts := by
  cases expression <;> exact List.mem_cons_self

theorem mem_parts_alternative {branches : List Expression} :
    part ∈ (Expression.alternative branches).parts ↔
      part = .alternative branches ∨ ∃ branch ∈ branches, part ∈ branch.parts := by
  rw [parts, partsAll_eq_flatMap, List.mem_cons, List.mem_flatMap]

theorem mem_parts_sequence {terms : List Expression} :
    part ∈ (Expression.sequence terms).parts ↔ part = .sequence terms ∨ ∃ term ∈ terms, part ∈ term.parts := by
  rw [parts, partsAll_eq_flatMap, List.mem_cons, List.mem_flatMap]

theorem mem_parts_enclosed {bracket : Bracket} {opening : Token} {body : Expression} :
    part ∈ (Expression.enclosed bracket opening body).parts ↔
      part = .enclosed bracket opening body ∨ part ∈ body.parts := by
  rw [parts, List.mem_cons]

/-! ### Shapes of parts -/

variable {leaves : Leaves} {level : Level}

theorem Shaped.of_mem_parts (hshaped : expression.Shaped leaves level) (hpart : part ∈ expression.parts) :
    ∃ level', part.Shaped leaves level' := by
  induction hshaped with
  | @name level token htoken =>
    obtain rfl := List.mem_singleton.1 hpart
    exact ⟨level, .name htoken⟩
  | @literal level token htoken =>
    obtain rfl := List.mem_singleton.1 hpart
    exact ⟨level, .literal htoken⟩
  | @enclosed level bracket opening body hopening hbody ih =>
    rcases mem_parts_enclosed.1 hpart with rfl | hinside
    · exact ⟨level, .enclosed hopening hbody⟩
    · exact ih hinside
  | @malformed level found problem hlevel hproblem =>
    obtain rfl := List.mem_singleton.1 hpart
    exact ⟨level, .malformed hlevel hproblem⟩
  | @sequence level terms hlevel hlength hterms ih =>
    rcases mem_parts_sequence.1 hpart with rfl | ⟨term, hterm, hinside⟩
    · exact ⟨level, .sequence hlevel hlength hterms⟩
    · exact ih term hterm hinside
  | @alternative branches hlength hbranches ih =>
    rcases mem_parts_alternative.1 hpart with rfl | ⟨branch, hbranch, hinside⟩
    · exact ⟨.whole, .alternative hlength hbranches⟩
    · exact ih branch hbranch hinside

theorem Shaped.exists_firstToken? (hshaped : expression.Shaped leaves level) :
    ∃ first, expression.firstToken? = some first := by
  induction hshaped with
  | @name level token _ => exact ⟨token, rfl⟩
  | @literal level token _ => exact ⟨token, rfl⟩
  | @enclosed level bracket opening body _ _ _ => exact ⟨opening, rfl⟩
  | @malformed level found problem _ _ => exact ⟨found, rfl⟩
  | @sequence level terms _ hlength _ ih =>
    obtain ⟨first, rest, rfl⟩ := List.exists_cons_of_length_pos (Nat.lt_of_lt_of_le Nat.two_pos hlength)
    exact ih first List.mem_cons_self
  | @alternative branches hlength _ ih =>
    obtain ⟨first, rest, rfl⟩ := List.exists_cons_of_length_pos (Nat.lt_of_lt_of_le Nat.two_pos hlength)
    exact ih first List.mem_cons_self

end GrammarCheck.Expression
