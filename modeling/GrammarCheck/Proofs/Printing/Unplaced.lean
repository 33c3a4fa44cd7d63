import GrammarCheck.Proofs.Reading.Trees
import GrammarCheck.Proofs.Syntax.Derivation

/-!
# Trees without places

Two sources can hold the same grammar at different places. What their trees have in common is what is
left of them without the positions of their tokens. The tokens that spell such a tree are those of
the tree with its places, and again without them.
-/

namespace GrammarCheck

/-! ### Tokens -/

/-- What is left of a token without its place: the kind, and the text if it is a name or a literal. -/
def Token.unplaced (token : Token) : Token :=
  if token.kind = .nonTerminal ∨ token.kind = .terminal then { Token.bare token.kind with text := token.text }
  else .bare token.kind

namespace Token

variable {token : Token}

@[simp] theorem kind_unplaced (token : Token) : token.unplaced.kind = token.kind := by
  unfold unplaced
  split <;> rfl

theorem unplaced_congr {left right : Token} (hkind : left.kind = right.kind)
    (htext : left.kind = .nonTerminal ∨ left.kind = .terminal → left.text = right.text) :
    left.unplaced = right.unplaced := by
  by_cases hword : left.kind = .nonTerminal ∨ left.kind = .terminal
  · rw [unplaced, if_pos hword, unplaced, if_pos (hkind ▸ hword), htext hword, hkind]
  · rw [unplaced, if_neg hword, unplaced, if_neg (hkind ▸ hword), hkind]

theorem unplaced_of_nonTerminal (hkind : token.kind = .nonTerminal) :
    token.unplaced = { Token.bare .nonTerminal with text := token.text } := by
  rw [unplaced, if_pos (.inl hkind), hkind]

theorem unplaced_of_terminal (hkind : token.kind = .terminal) :
    token.unplaced = { Token.bare .terminal with text := token.text } := by
  rw [unplaced, if_pos (.inr hkind), hkind]

@[simp] theorem unplaced_bare (kind : Kind) : (bare kind).unplaced = bare kind := by
  unfold unplaced
  split <;> rfl

theorem unplaced_of_opening {bracket : Bracket} (hkind : token.kind = .opening bracket) :
    token.unplaced = bare (.opening bracket) := by
  simp [unplaced, hkind]

@[simp] theorem unplaced_unplaced (token : Token) : token.unplaced.unplaced = token.unplaced := by
  by_cases hword : token.kind = .nonTerminal ∨ token.kind = .terminal
  · rw [unplaced.eq_def token.unplaced, kind_unplaced, if_pos hword, unplaced, if_pos hword]
  · rw [unplaced.eq_def token, if_neg hword, unplaced_bare]

/-- Expressions keep all of a token but its place and what other kinds than words have as a text. -/
theorem unplaced_kept (token : Token) : token.kept.unplaced = token.unplaced := by
  unfold kept
  split
  · rfl
  · next hkept =>
    have hword : ¬(token.kind = .nonTerminal ∨ token.kind = .terminal) := by
      intro hword
      rcases hword with hkind | hkind <;> simp [hkind, Kind.isKept] at hkept
    rw [unplaced_bare, unplaced, if_neg hword]

theorem spelling_unplaced (hkind : token.kind = .nonTerminal) : token.unplaced.spelling = token.spelling := by
  rw [unplaced_of_nonTerminal hkind, spelling, spelling]

end Token

/-! ### Expressions -/

namespace Expression

mutual

/-- What is left of an expression without the places of its tokens. The tokens that open brackets are
all place. -/
def unplaced : Expression → Expression
  | .alternative branches => .alternative (unplacedAll branches)
  | .sequence terms => .sequence (unplacedAll terms)
  | .name token => .name token.unplaced
  | .literal token => .literal token.unplaced
  | .enclosed bracket _ body => .enclosed bracket (.bare (.opening bracket)) body.unplaced
  | .malformed found problem => .malformed found problem

def unplacedAll : List Expression → List Expression
  | [] => []
  | expression :: rest => expression.unplaced :: unplacedAll rest

end

theorem unplacedAll_eq_map (expressions : List Expression) : unplacedAll expressions = expressions.map unplaced := by
  induction expressions with
  | nil => rfl
  | cons expression rest ih => rw [unplacedAll, ih, List.map_cons]

theorem unplaced_alternative (branches : List Expression) :
    (Expression.alternative branches).unplaced = .alternative (branches.map unplaced) := by
  rw [unplaced, unplacedAll_eq_map]

theorem unplaced_sequence (terms : List Expression) :
    (Expression.sequence terms).unplaced = .sequence (terms.map unplaced) := by
  rw [unplaced, unplacedAll_eq_map]

variable {leaves : Leaves} {level : Level} {expression : Expression}

/-- The leaves are words of the kinds that belong in their places, and no term is missing. What opens
a bracket does not matter. -/
structure Leaves.AreWords (leaves : Leaves) : Prop where
  heading {token : Token} : leaves.heading token → token.kind = .nonTerminal
  name {token : Token} : leaves.name token → token.kind = .nonTerminal
  literal {token : Token} : leaves.literal token → token.kind = .terminal
  malformed {found : Token} {problem : Diagnostic} : ¬leaves.malformed found problem

theorem Leaves.areWords_fitting : Leaves.fitting.AreWords := ⟨id, id, id, id⟩

/-- The shape of an expression does not depend on its places, and without them its brackets fit. -/
theorem Shaped.fitting_unplaced (hleaves : leaves.AreWords) (hshaped : expression.Shaped leaves level) :
    expression.unplaced.Shaped .fitting level := by
  induction hshaped with
  | name htoken => exact .name ((Token.kind_unplaced _).trans (hleaves.name htoken))
  | literal htoken => exact .literal ((Token.kind_unplaced _).trans (hleaves.literal htoken))
  | enclosed _ _ ih => exact .enclosed rfl ih
  | malformed _ hproblem => exact absurd hproblem hleaves.malformed
  | @sequence level terms hlevel hlength _ ih =>
    rw [unplaced_sequence]
    refine .sequence hlevel (by rwa [List.length_map]) ?_
    simpa using ih
  | @alternative branches hlength _ ih =>
    rw [unplaced_alternative]
    refine .alternative (by rwa [List.length_map]) ?_
    simpa using ih

theorem Shaped.toTokens_unplaced (hshaped : expression.Shaped .fitting level) :
    expression.unplaced.toTokens = expression.toTokens.map Token.unplaced := by
  induction hshaped with
  | name _ => rfl
  | literal _ => rfl
  | @enclosed level bracket opening body hopening _ ih =>
    have hplace : opening.unplaced = .bare (.opening bracket) := Token.unplaced_of_opening hopening
    rw [Expression.unplaced, toTokens, toTokens, ih, List.map_cons, hplace, List.map_append, List.map_singleton,
      Token.unplaced_bare]
  | malformed _ hproblem => exact hproblem.elim
  | @sequence level terms _ _ _ ih =>
    rw [unplaced_sequence, toTokens_sequence, toTokens_sequence, List.flatMap_map, List.map_flatMap]
    exact List.flatMap_congr ih
  | @alternative branches _ _ ih =>
    rw [unplaced_alternative, toTokens_alternative, toTokens_alternative, map_intercalate, List.map_map, List.map_map,
      List.map_singleton, Token.unplaced_bare]
    exact congrArg _ (List.map_congr_left ih)

end Expression

/-! ### Productions -/

namespace Production

def unplaced (production : Production) : Production :=
  ⟨production.name.unplaced, production.expression.map Expression.unplaced⟩

variable {leaves : Expression.Leaves} {production : Production}

theorem Shaped.fitting_unplaced (hleaves : leaves.AreWords) (hshaped : production.Shaped leaves) :
    production.unplaced.Shaped .fitting := by
  refine ⟨(Token.kind_unplaced _).trans (hleaves.heading hshaped.heading), ?_⟩
  intro expression hexpression
  obtain ⟨placed, hplaced, rfl⟩ := Option.map_eq_some_iff.1 hexpression
  exact (hshaped.expression placed hplaced).fitting_unplaced hleaves

theorem Shaped.toTokens_unplaced (hshaped : production.Shaped .fitting) :
    production.unplaced.toTokens = production.toTokens.map Token.unplaced := by
  obtain ⟨name, expression⟩ := production
  cases expression with
  | none => simp [Production.unplaced, toTokens]
  | some expression =>
    have hexpression := (hshaped.expression expression rfl).toTokens_unplaced
    simp [Production.unplaced, toTokens, hexpression]

/-- Tokens that are those of a production, places apart, are what spells the production at their places. -/
theorem Shaped.exists_placed (hleaves : leaves.AreWords) (hshaped : production.Shaped leaves) {tokens : List Token}
    (htokens : tokens.map Token.unplaced = production.unplaced.toTokens) :
    ∃ placed : Production, placed.Shaped .fitting ∧ placed.toTokens = tokens.map Token.kept ∧
      placed.unplaced = production.unplaced := by
  have hunplaced : production.unplaced.Shaped .fitting := hshaped.fitting_unplaced hleaves
  have hkinds : tokens.map (·.kind) = production.unplaced.toTokens.map (·.kind) := by
    rw [← htokens, List.map_map]
    exact List.map_congr_left fun token _ => (Token.kind_unplaced token).symm
  obtain ⟨placed, hplaced, hkept⟩ := Expression.Derives.hasTree hunplaced.derives hkinds
  refine ⟨placed, hplaced, hkept, ?_⟩
  have hspelled : placed.unplaced.toTokens = production.unplaced.toTokens := by
    rw [hplaced.toTokens_unplaced, hkept, ← htokens, List.map_map]
    exact List.map_congr_left fun token _ => Token.unplaced_kept token
  -- the tokens determine the tree, so the two are the same without their places
  have hsingle : [placed.unplaced] = [production.unplaced] := by
    apply eq_of_flatMap_toTokens_eq
    · simpa using hplaced.fitting_unplaced Expression.Leaves.areWords_fitting
    · simpa using hunplaced
    · simpa using hspelled
  exact List.singleton_inj.1 hsingle

end Production

end GrammarCheck
