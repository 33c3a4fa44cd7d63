import GrammarCheck.Proofs.Reading.Step

/-!
# Reading loses nothing

As long as there is no problem, what has been read spells exactly the tokens that were taken, up to
what expressions keep of a token: those of complete productions first and then those of the
production being read.
-/

namespace GrammarCheck

/-- The tokens that spell the part of an expression that has been read. -/
def Fragment.toTokens (fragment : Fragment) : List Token :=
  fragment.branches.reverse.flatMap (·.toTokens ++ [Token.bare .bar]) ++
    fragment.terms.reverse.flatMap Expression.toTokens

/-- The tokens that spell what stands before the body of a bracket. -/
def Frame.toTokens (frame : Frame) : List Token := frame.outer.toTokens ++ [frame.opening]

/-- The tokens that spell the part of a production that has been read. -/
def Phase.toTokens : Phase → List Token
  | .between => []
  | .named name => [name]
  | .defining name => [name, .bare .equals]
  | .within name frames fragment =>
    name :: .bare .equals :: (frames.reverse.flatMap Frame.toTokens ++ fragment.toTokens)

namespace Fragment

variable {fragment : Fragment}

theorem toTokens_empty : empty.toTokens = [] := rfl

theorem toTokens_push (fragment : Fragment) (term : Expression) :
    (fragment.push term).toTokens = fragment.toTokens ++ term.toTokens := by
  simp [toTokens, push]

theorem toTokens_sequence (hterms : fragment.terms ≠ []) (found : Token) :
    (fragment.sequence found).toTokens = fragment.terms.reverse.flatMap Expression.toTokens := by
  obtain ⟨branches, terms⟩ := fragment
  match terms with
  | [] => exact absurd rfl hterms
  | [term] => simp [sequence]
  | first :: second :: rest => exact Expression.toTokens_sequence _

theorem toTokens_expression (hterms : fragment.terms ≠ []) (found : Token) :
    (fragment.expression found).toTokens = fragment.toTokens := by
  have hsequence := toTokens_sequence hterms found
  unfold expression toTokens
  split
  · next hbranches => rw [hsequence, hbranches]; rfl
  · rw [List.reverse_cons, Expression.toTokens_alternative_concat, hsequence]

theorem toTokens_nextBranch (hterms : fragment.terms ≠ []) (found : Token) :
    (fragment.nextBranch found).toTokens = fragment.toTokens ++ [Token.bare .bar] := by
  simp [nextBranch, toTokens, toTokens_sequence hterms found]

end Fragment

namespace Phase

variable {name token : Token} {frames : List Frame} {fragment : Fragment}

/-- A token within an expression that causes no problem is spelled after what was read before it. -/
theorem toTokens_stepExpression (hclean : Clean (stepExpression name frames fragment token).2) :
    (within name frames fragment).toTokens ++ [token.kept] =
      (productionsOf (stepExpression name frames fragment token).2).flatMap Production.toTokens ++
        (stepExpression name frames fragment token).1.toTokens := by
  rcases token.kind.expression_cases with hkind | hkind | ⟨bracket, hkind⟩ | hkind | hends
  · rw [stepExpression_nonTerminal hkind, Token.kept_of_isKept (by rw [hkind]; rfl)]
    simp [toTokens, productionsOf, Fragment.toTokens_push, Expression.toTokens]
  · rw [stepExpression_terminal hkind, Token.kept_of_isKept (by rw [hkind]; rfl)]
    simp [toTokens, productionsOf, Fragment.toTokens_push, Expression.toTokens]
  · rw [stepExpression_opening hkind, Token.kept_of_isKept (by rw [hkind]; rfl)]
    simp [toTokens, productionsOf, Frame.toTokens, Fragment.toTokens_empty]
  · rw [stepExpression_bar hkind] at hclean ⊢
    have hterms := Fragment.clean_events.mp hclean
    rw [Token.kept_of_not_isKept (by rw [hkind]; rfl), hkind]
    simp [toTokens, Fragment.productionsOf_events, Fragment.toTokens_nextBranch hterms]
  · cases frames with
    | nil =>
      rw [stepExpression_closeProduction hends] at hclean ⊢
      obtain ⟨hterms, hkind⟩ := clean_closeProduction.mp hclean
      rw [Token.kept_of_not_isKept (by rw [hkind]; rfl), hkind, productionsOf_closeProduction]
      simp [toTokens, Production.toTokens, Fragment.toTokens_expression hterms]
    | cons frame frames =>
      rw [stepExpression_closeBracket hends] at hclean ⊢
      obtain ⟨hterms, hkind⟩ := clean_closeBracket.mp hclean
      rw [Token.kept_of_not_isKept (by rw [hkind]; rfl), hkind, productionsOf_closeBracket]
      simp [toTokens, Frame.toTokens, Frame.close, Fragment.toTokens_push, Expression.toTokens,
        Fragment.toTokens_expression hterms]

theorem toTokens_step {phase : Phase} (hclean : Clean (phase.step token).2) :
    phase.toTokens ++ [token.kept] =
      (productionsOf (phase.step token).2).flatMap Production.toTokens ++ (phase.step token).1.toTokens := by
  cases phase with
  | between =>
    have hkind := Kind.clean_mismatch.mp hclean
    simp [step, toTokens, Kind.productionsOf_mismatch, Token.kept_of_isKept, hkind, Kind.isKept]
  | named name =>
    have hkind := Kind.clean_mismatch.mp hclean
    simp [step, toTokens, Kind.productionsOf_mismatch, Token.kept_of_not_isKept, hkind, Kind.isKept]
  | defining name =>
    by_cases hkind : token.kind = .terminator
    · rw [step_defining_terminator hkind, Token.kept_of_not_isKept (by rw [hkind]; rfl), hkind,
        productionsOf_production]
      simp [toTokens, Production.toTokens]
    · rw [step_defining hkind] at hclean ⊢
      exact toTokens_stepExpression hclean
  | within name frames fragment => exact toTokens_stepExpression hclean

/-- Tokens that cause no problem are all spelled by what is read from them. -/
theorem toTokens_after {phase : Phase} {tokens : List Token} (hclean : Clean (phase.events tokens)) :
    phase.toTokens ++ tokens.map Token.kept =
      (productionsOf (phase.events tokens)).flatMap Production.toTokens ++ (phase.after tokens).toTokens := by
  induction tokens generalizing phase with
  | nil => simp [events, after, productionsOf]
  | cons token rest ih =>
    rw [events, clean_append] at hclean
    obtain ⟨hstep, hrest⟩ := hclean
    calc phase.toTokens ++ (token :: rest).map Token.kept
      _ = phase.toTokens ++ [token.kept] ++ rest.map Token.kept := by simp
      _ = (productionsOf (phase.step token).2).flatMap Production.toTokens ++
            ((phase.step token).1.toTokens ++ rest.map Token.kept) := by
        rw [toTokens_step hstep, List.append_assoc]
      _ = _ := by
        rw [ih hrest, events, productionsOf_append, List.flatMap_append, List.append_assoc]
        rfl

theorem Shaped.productions_after {phase : Phase} {tokens : List Token} (hphase : phase.Shaped .fitting)
    (hclean : Clean (phase.events tokens)) :
    ∀ production ∈ productionsOf (phase.events tokens), production.Shaped .fitting := by
  induction tokens generalizing phase with
  | nil => simp [events, productionsOf]
  | cons token rest ih =>
    rw [events, clean_append] at hclean
    obtain ⟨hstep, hrest⟩ := hclean
    have hheading : phase = .between → Expression.Leaves.fitting.heading token := by
      intro hbetween
      rw [hbetween] at hstep
      exact Kind.clean_mismatch.mp hstep
    obtain ⟨hnext, hproductions⟩ := hphase.step (Expression.Leaves.admits_fitting token) hheading
      fun hproblem => absurd hproblem (hstep _)
    intro production hmem
    rw [events, productionsOf_append] at hmem
    rcases List.mem_append.mp hmem with hmem | hmem
    · exact hproductions production hmem
    · exact ih hnext hrest production hmem

end Phase

end GrammarCheck
