import GrammarCheck.Diagnostic.Basic
/-!
# Expressions

The right-hand sides of productions. Alternatives and sequences may have any number of parts; those
that come from a source have at least two.
-/

namespace GrammarCheck

/-- The right-hand side of a production. -/
inductive Expression where
  /-- One of several expressions, `x | y`. -/
  | alternative (branches : List Expression)
  /-- Several expressions in a row, `x y`. -/
  | sequence (terms : List Expression)
  /-- A reference to a production. -/
  | name (token : Token)
  /-- A terminal, which refers to nothing. -/
  | literal (token : Token)
  /-- An expression in brackets, with the token that opens them. -/
  | enclosed (bracket : Bracket) (opening : Token) (body : Expression)
  /-- Stands where a term was missing, with the token found there and the problem reported. -/
  | malformed (found : Token) (problem : Diagnostic)
deriving Repr

namespace Expression

/-! ### Equality -/

mutual

def beq : Expression → Expression → Bool
  | .alternative branches, .alternative branches' => beqAll branches branches'
  | .sequence terms, .sequence terms' => beqAll terms terms'
  | .name token, .name token' => token == token'
  | .literal token, .literal token' => token == token'
  | .enclosed bracket opening body, .enclosed bracket' opening' body' =>
    bracket == bracket' && opening == opening' && beq body body'
  | .malformed found problem, .malformed found' problem' => found == found' && problem == problem'
  | _, _ => false

def beqAll : List Expression → List Expression → Bool
  | [], [] => true
  | expression :: rest, expression' :: rest' => beq expression expression' && beqAll rest rest'
  | _, _ => false

end

mutual

theorem eq_of_beq : ∀ {left right : Expression}, beq left right = true → left = right
  | .alternative _, right, hbeq => by
    cases right <;> simp_all [beq]
    exact eq_of_beqAll hbeq
  | .sequence _, right, hbeq => by
    cases right <;> simp_all [beq]
    exact eq_of_beqAll hbeq
  | .name _, right, hbeq => by cases right <;> simp_all [beq]
  | .literal _, right, hbeq => by cases right <;> simp_all [beq]
  | .enclosed .., right, hbeq => by
    cases right <;> simp_all [beq]
    exact eq_of_beq hbeq.2
  | .malformed .., right, hbeq => by cases right <;> simp_all [beq]

theorem eq_of_beqAll : ∀ {left right : List Expression}, beqAll left right = true → left = right
  | [], right, hbeq => by cases right <;> simp_all [beqAll]
  | _ :: _, right, hbeq => by
    cases right <;> simp_all [beqAll]
    exact ⟨eq_of_beq hbeq.1, eq_of_beqAll hbeq.2⟩

end

mutual

theorem beq_self : ∀ expression : Expression, beq expression expression = true
  | .alternative branches => by simp [beq, beqAll_self branches]
  | .sequence terms => by simp [beq, beqAll_self terms]
  | .name _ => by simp [beq]
  | .literal _ => by simp [beq]
  | .enclosed _ _ body => by simp [beq, beq_self body]
  | .malformed .. => by simp [beq]

theorem beqAll_self : ∀ expressions : List Expression, beqAll expressions expressions = true
  | [] => rfl
  | expression :: rest => by simp [beqAll, beq_self expression, beqAll_self rest]

end

instance : DecidableEq Expression := fun left right =>
  if hbeq : beq left right then .isTrue (eq_of_beq hbeq)
  else .isFalse fun heq => hbeq (heq ▸ beq_self left)

/-! ### Parts of an expression -/

/-- The leftmost token. There is none if the expression begins with an empty list. -/
def firstToken? : Expression → Option Token
  | .alternative [] | .sequence [] => none
  | .alternative (first :: _) | .sequence (first :: _) => first.firstToken?
  | .name token | .literal token => some token
  | .enclosed _ opening _ => some opening
  | .malformed found _ => some found

/-- The number of tokens before the leftmost one. -/
def index? (expression : Expression) : Option Nat := expression.firstToken?.map (·.index)

/-- The line of the leftmost token. -/
def line? (expression : Expression) : Option Nat := expression.firstToken?.map Token.line

/-- What verifying an expression meets on its way from left to right. -/
inductive Occurrence where
  | reference (token : Token)
  | problem (problem : Diagnostic)
deriving DecidableEq, Repr

mutual

/-- The names and problems of an expression at any depth, from left to right. -/
def occurrences : Expression → List Occurrence
  | .alternative branches => occurrencesAll branches
  | .sequence terms => occurrencesAll terms
  | .name token => [.reference token]
  | .literal _ => []
  | .enclosed _ _ body => body.occurrences
  | .malformed _ problem => [.problem problem]

def occurrencesAll : List Expression → List Occurrence
  | [] => []
  | expression :: rest => expression.occurrences ++ occurrencesAll rest

end

/-! ### Text -/

/-- The text of a body in brackets, which stand apart from it. -/
def renderEnclosed (bracket : Bracket) (body : String) : String :=
  s!"{bracket.openingChar} {body} {bracket.closingChar}"

mutual

/-- The expression as a source spells it. A missing term shows as `<malformed>`. -/
def render : Expression → String
  | .alternative branches => " | ".intercalate (renderAll branches)
  | .sequence terms => " ".intercalate (renderAll terms)
  | .name token => token.spelling
  | .literal token => token.spelling
  | .enclosed bracket _ body => renderEnclosed bracket body.render
  | .malformed .. => "<malformed>"

def renderAll : List Expression → List String
  | [] => []
  | expression :: rest => expression.render :: renderAll rest

end

end Expression

end GrammarCheck
