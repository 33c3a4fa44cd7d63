import GrammarCheck.Grammar.Production
import Mathlib.Data.List.Induction

/-!
# Expressions as token sequences

An expression spells a sequence of tokens. It keeps the tokens of names, literals and opening
brackets, and the other ones follow from its shape, so that they have a kind and nothing else.

Several trees may spell one sequence. The expressions of a source have a shape that makes the choice:
alternatives stand outside of sequences, both have at least two parts, and neither stands directly
inside its own kind.
-/

namespace GrammarCheck

/-- Punctuation without a place in a source. -/
def Token.bare (kind : Kind) : Token := { kind, text := [], position := ⟨0, 0⟩, index := 0 }

/-- The word that stands for a missing term in a printed expression. -/
def Token.missing : Token := { Token.bare .unknown with text := Utf8.encode "<malformed>" }

def Kind.isKept : Kind → Bool
  | .nonTerminal | .terminal | .opening _ => true
  | .unknown | .closing _ | .endOfInput | .endOfLine | .equals | .bar | .terminator => false

/-- What is left of a token in an expression: all of it, or its kind. -/
def Token.kept (token : Token) : Token := if token.kind.isKept then token else .bare token.kind

@[simp] theorem Token.kind_bare (kind : Kind) : (Token.bare kind).kind = kind := rfl

@[simp] theorem Token.kind_kept (token : Token) : token.kept.kind = token.kind := by
  unfold kept
  split <;> rfl

theorem Token.kept_of_isKept {token : Token} (hkept : token.kind.isKept = true) : token.kept = token :=
  if_pos hkept

theorem Token.kept_of_not_isKept {token : Token} (hkept : token.kind.isKept = false) :
    token.kept = .bare token.kind :=
  if_neg (by simp [hkept])

namespace Expression

/-! ### Spelling -/

mutual

def toTokens : Expression → List Token
  | .alternative branches => [Token.bare .bar].intercalate (toTokensAll branches)
  | .sequence terms => (toTokensAll terms).flatten
  | .name token => [token]
  | .literal token => [token]
  | .enclosed bracket opening body => opening :: (body.toTokens ++ [.bare (.closing bracket)])
  | .malformed .. => [.missing]

def toTokensAll : List Expression → List (List Token)
  | [] => []
  | expression :: rest => expression.toTokens :: toTokensAll rest

end

theorem toTokensAll_eq_map (expressions : List Expression) :
    toTokensAll expressions = expressions.map toTokens := by
  induction expressions with
  | nil => rfl
  | cons expression rest ih => rw [toTokensAll, ih, List.map_cons]

theorem toTokens_alternative (branches : List Expression) :
    (Expression.alternative branches).toTokens = [Token.bare .bar].intercalate (branches.map toTokens) := by
  rw [toTokens, toTokensAll_eq_map]

theorem toTokens_sequence (terms : List Expression) :
    (Expression.sequence terms).toTokens = terms.flatMap toTokens := by
  rw [toTokens, toTokensAll_eq_map, List.flatMap_def]

end Expression

def Production.toTokens (production : Production) : List Token :=
  production.name :: .bare .equals ::
    (production.expression.elim [] Expression.toTokens ++ [.bare .terminator])

/-- Separators stand after each part but the last. -/
theorem intercalate_concat {α : Type} (separator : List α) (parts : List (List α)) (last : List α) :
    separator.intercalate (parts ++ [last]) = parts.flatMap (· ++ separator) ++ last := by
  induction parts with
  | nil => simp
  | cons part rest ih =>
    rw [List.cons_append, List.intercalate_cons_of_ne_nil (by simp), ih, List.flatMap_cons,
      List.append_assoc, List.append_assoc, List.append_assoc]

namespace Expression

theorem toTokens_alternative_concat (branches : List Expression) (last : Expression) :
    (Expression.alternative (branches ++ [last])).toTokens =
      branches.flatMap (·.toTokens ++ [Token.bare .bar]) ++ last.toTokens := by
  rw [toTokens_alternative, List.map_append, List.map_singleton, intercalate_concat, List.flatMap_map]

/-! ### Shape -/

/-- Conditions on the tokens of an expression and of the production around it. -/
structure Leaves where
  heading : Token → Prop
  name : Token → Prop
  literal : Token → Prop
  opening : Bracket → Token → Prop
  malformed : Token → Diagnostic → Prop

/-- Tokens of the kinds that belong in their places, and no missing terms. -/
def Leaves.fitting : Leaves where
  heading token := token.kind = .nonTerminal
  name token := token.kind = .nonTerminal
  literal token := token.kind = .terminal
  opening bracket token := token.kind = .opening bracket
  malformed _ _ := False

/-- How loosely the parts of an expression are held together. -/
inductive Level where
  /-- A part of a sequence. -/
  | term
  /-- A part of an alternative. -/
  | branch
  /-- A right-hand side or the body of a bracket. -/
  | whole
deriving DecidableEq, Repr

/-- The expression has the shape that fits the level, with leaves under conditions. -/
inductive Shaped (leaves : Leaves) : Level → Expression → Prop
  | name {level : Level} {token : Token} : leaves.name token → Shaped leaves level (.name token)
  | literal {level : Level} {token : Token} : leaves.literal token → Shaped leaves level (.literal token)
  | enclosed {level : Level} {bracket : Bracket} {opening : Token} {body : Expression} :
      leaves.opening bracket opening → Shaped leaves .whole body →
        Shaped leaves level (.enclosed bracket opening body)
  | malformed {level : Level} {found : Token} {problem : Diagnostic} :
      level ≠ .term → leaves.malformed found problem → Shaped leaves level (.malformed found problem)
  | sequence {level : Level} {terms : List Expression} :
      level ≠ .term → 2 ≤ terms.length → (∀ term ∈ terms, Shaped leaves .term term) →
        Shaped leaves level (.sequence terms)
  | alternative {branches : List Expression} :
      2 ≤ branches.length → (∀ branch ∈ branches, Shaped leaves .branch branch) →
        Shaped leaves .whole (.alternative branches)

variable {leaves : Leaves} {expression : Expression}

theorem Shaped.branch_of_term (hshaped : expression.Shaped leaves .term) : expression.Shaped leaves .branch := by
  cases hshaped with
  | name htoken => exact .name htoken
  | literal htoken => exact .literal htoken
  | enclosed hopening hbody => exact .enclosed hopening hbody
  | malformed hlevel => exact absurd rfl hlevel
  | sequence hlevel => exact absurd rfl hlevel

theorem Shaped.whole_of_branch (hshaped : expression.Shaped leaves .branch) :
    expression.Shaped leaves .whole := by
  cases hshaped with
  | name htoken => exact .name htoken
  | literal htoken => exact .literal htoken
  | enclosed hopening hbody => exact .enclosed hopening hbody
  | malformed _ hproblem => exact .malformed (by decide) hproblem
  | sequence _ hlength hterms => exact .sequence (by decide) hlength hterms

/-- What spells a fitting expression begins with a token that begins a term. -/
theorem Shaped.exists_cons_toTokens {level : Level} (hshaped : expression.Shaped .fitting level) :
    ∃ first rest, expression.toTokens = first :: rest ∧ first.kind.isKept = true := by
  induction hshaped with
  | @name level token htoken =>
    have hkind : token.kind = .nonTerminal := htoken
    exact ⟨token, [], rfl, by rw [hkind]; rfl⟩
  | @literal level token htoken =>
    have hkind : token.kind = .terminal := htoken
    exact ⟨token, [], rfl, by rw [hkind]; rfl⟩
  | @enclosed level bracket opening body hopening =>
    have hkind : opening.kind = .opening bracket := hopening
    exact ⟨opening, _, rfl, by rw [hkind]; rfl⟩
  | malformed _ hproblem => exact hproblem.elim
  | @sequence level terms _ hlength _ ih =>
    obtain ⟨first, others, rfl⟩ := List.exists_cons_of_length_pos (Nat.lt_of_lt_of_le Nat.two_pos hlength)
    obtain ⟨token, rest, htokens, hkept⟩ := ih first List.mem_cons_self
    exact ⟨token, rest ++ others.flatMap toTokens, by simp [toTokens_sequence, htokens], hkept⟩
  | @alternative branches hlength _ ih =>
    obtain ⟨first, others, rfl⟩ := List.exists_cons_of_length_pos (Nat.lt_of_lt_of_le Nat.two_pos hlength)
    obtain ⟨token, rest, htokens, hkept⟩ := ih first List.mem_cons_self
    rw [toTokens_alternative, List.map_cons, htokens, List.intercalate_cons_cons_left]
    exact ⟨token, _, rfl, hkept⟩

end Expression

/-- The production has a name under a condition and a right-hand side of the shape of a whole one. -/
structure Production.Shaped (leaves : Expression.Leaves) (production : Production) : Prop where
  heading : leaves.heading production.name
  expression : ∀ expression, production.expression = some expression → expression.Shaped leaves .whole

end GrammarCheck
