import GrammarCheck.Proofs.Reading.Step
import Mathlib.Data.List.Basic

/-!
# Reading what a tree spells

The tokens that spell a fitting tree are read without a problem, and what is read from them is the
tree itself. So a token sequence spells at most one fitting tree. Reading depends on no more of a
token than expressions keep of it, as long as there is no problem.
-/

namespace GrammarCheck

theorem Kind.mismatch_eq_nil {kind : Kind} {found : Token} (hkind : found.kind = kind) :
    kind.mismatch found = [] :=
  if_pos hkind

theorem Kind.mismatch_kept {kind : Kind} {found : Token} (hclean : Clean (kind.mismatch found.kept)) :
    kind.mismatch found = kind.mismatch found.kept := by
  have hkept := Kind.clean_mismatch.mp hclean
  rw [mismatch_eq_nil hkept, mismatch_eq_nil (found.kind_kept.symm.trans hkept)]

namespace Fragment

variable {fragment : Fragment}

theorem events_eq_nil {found : Token} (hterms : fragment.terms ≠ []) : fragment.events found = [] := by
  simp [Fragment.events, sequenceProblems, hterms]

theorem sequence_congr (hterms : fragment.terms ≠ []) (found other : Token) :
    fragment.sequence found = fragment.sequence other := by
  obtain ⟨branches, terms⟩ := fragment
  match terms with
  | [] => exact absurd rfl hterms
  | [term] => rfl
  | first :: second :: rest => rfl

theorem expression_congr (hterms : fragment.terms ≠ []) (found other : Token) :
    fragment.expression found = fragment.expression other := by
  unfold expression
  rw [sequence_congr hterms found other]

end Fragment

namespace Phase

/-- The tokens lead from one phase to the other and bring about nothing on the way. -/
structure Takes (phase : Phase) (tokens : List Token) (next : Phase) : Prop where
  after_eq : phase.after tokens = next
  events_eq : phase.events tokens = []

variable {phase next : Phase} {name : Token} {frames : List Frame} {fragment : Fragment}

theorem takes_nil (phase : Phase) : phase.Takes [] phase := ⟨rfl, rfl⟩

theorem Takes.trans {last : Phase} {first second : List Token} (hfirst : phase.Takes first next)
    (hsecond : next.Takes second last) : phase.Takes (first ++ second) last := by
  constructor
  · rw [after_append, hfirst.after_eq, hsecond.after_eq]
  · rw [events_append, hfirst.after_eq, hfirst.events_eq, hsecond.events_eq, List.append_nil]

theorem takes_singleton {token : Token} (hstep : phase.step token = (next, [])) : phase.Takes [token] next := by
  constructor
  · rw [after, List.foldl_cons, hstep]
    rfl
  · rw [events, hstep]
    rfl

theorem takes_bar (hterms : fragment.terms ≠ []) :
    (within name frames fragment).Takes [.bare .bar] (within name frames (fragment.nextBranch (.bare .bar))) := by
  apply takes_singleton
  rw [step, stepExpression_bar rfl, Fragment.events_eq_nil hterms]

theorem takes_closing {frame : Frame} (hterms : fragment.terms ≠ []) :
    (within name (frame :: frames) fragment).Takes [.bare (.closing frame.bracket)]
      (within name frames (frame.close (fragment.expression (.bare (.closing frame.bracket))))) := by
  apply takes_singleton
  rw [step, stepExpression_closeBracket rfl, closeBracket, Fragment.events_eq_nil hterms,
    Kind.mismatch_eq_nil (Token.kind_bare _)]
  rfl

end Phase

namespace Fragment

/-- The fragment is the whole expression, whatever token ends it. -/
structure Completes (fragment : Fragment) (expression : Expression) : Prop where
  terms_ne_nil : fragment.terms ≠ []
  expression_eq : ∀ found, fragment.expression found = expression

/-- The terms are the whole branch, whatever token ends it. -/
structure CompletesBranch (terms : List Expression) (branch : Expression) : Prop where
  terms_ne_nil : terms ≠ []
  sequence_eq : ∀ branches found, sequence ⟨branches, terms⟩ found = branch

theorem completesBranch_singleton (term : Expression) : CompletesBranch [term] term :=
  ⟨List.cons_ne_nil _ _, fun _ _ => rfl⟩

theorem completesBranch_sequence {terms : List Expression} (hlength : 2 ≤ terms.length) :
    CompletesBranch terms.reverse (.sequence terms) := by
  have hreverse := List.reverse_reverse terms
  rw [← List.length_reverse] at hlength
  match hterms : terms.reverse, hlength with
  | first :: second :: rest, _ =>
    rw [hterms] at hreverse
    exact ⟨List.cons_ne_nil _ _, fun _ _ => congrArg Expression.sequence hreverse⟩

theorem CompletesBranch.completes {terms : List Expression} {branch : Expression}
    (hbranch : CompletesBranch terms branch) : Completes ⟨[], terms⟩ branch :=
  ⟨hbranch.terms_ne_nil, fun found => hbranch.sequence_eq [] found⟩

theorem CompletesBranch.completes_alternative {terms branches : List Expression} {last : Expression}
    (hlast : CompletesBranch terms last) (hbranches : branches ≠ []) :
    Completes ⟨branches.reverse, terms⟩ (.alternative (branches ++ [last])) := by
  refine ⟨hlast.terms_ne_nil, fun found => ?_⟩
  have hreverse := List.reverse_reverse branches
  cases hreversed : branches.reverse with
  | nil => exact absurd (List.reverse_eq_nil_iff.mp hreversed) hbranches
  | cons previous earlier =>
    rw [hreversed] at hreverse
    change Expression.alternative (sequence ⟨previous :: earlier, terms⟩ found :: previous :: earlier).reverse = _
    rw [hlast.sequence_eq, List.reverse_cons, hreverse]

end Fragment

namespace Phase

variable {name : Token} {frames : List Frame} {fragment : Fragment}

/-- What spells the expression is read as a term, as a branch or as a whole expression. -/
def Reads : Expression.Level → Expression → Prop
  | .term, expression => ∀ name frames fragment,
      (within name frames fragment).Takes expression.toTokens (within name frames (fragment.push expression))
  | .branch, expression => ∀ name frames branches, ∃ terms, Fragment.CompletesBranch terms expression ∧
      (within name frames ⟨branches, []⟩).Takes expression.toTokens (within name frames ⟨branches, terms⟩)
  | .whole, expression => ∀ name frames, ∃ fragment, fragment.Completes expression ∧
      (within name frames .empty).Takes expression.toTokens (within name frames fragment)

theorem Reads.whole_of_branch {expression : Expression} (hreads : Reads .branch expression) :
    Reads .whole expression := by
  intro name frames
  obtain ⟨terms, hcompletes, htakes⟩ := hreads name frames []
  exact ⟨⟨[], terms⟩, hcompletes.completes, htakes⟩

theorem reads_of_branch {level : Expression.Level} {expression : Expression} (hlevel : level ≠ .term)
    (hreads : Reads .branch expression) : Reads level expression := by
  cases level with
  | term => exact absurd rfl hlevel
  | branch => exact hreads
  | whole => exact hreads.whole_of_branch

theorem reads_of_term {level : Expression.Level} {expression : Expression} (hreads : Reads .term expression) :
    Reads level expression := by
  have hbranch : Reads .branch expression := fun name frames branches =>
    ⟨[expression], Fragment.completesBranch_singleton expression, hreads name frames ⟨branches, []⟩⟩
  by_cases hlevel : level = .term
  · exact hlevel ▸ hreads
  · exact reads_of_branch hlevel hbranch

theorem takes_terms {terms : List Expression} (hreads : ∀ term ∈ terms, Reads .term term)
    (branches earlier : List Expression) :
    (within name frames ⟨branches, earlier⟩).Takes (terms.flatMap Expression.toTokens)
      (within name frames ⟨branches, terms.reverse ++ earlier⟩) := by
  induction terms generalizing earlier with
  | nil => exact takes_nil _
  | cons term rest ih =>
    obtain ⟨hterm, hrest⟩ := List.forall_mem_cons.mp hreads
    rw [List.flatMap_cons, List.reverse_cons, List.append_assoc]
    exact (hterm name frames ⟨branches, earlier⟩).trans (ih hrest (term :: earlier))

theorem takes_branches {branches : List Expression} (hreads : ∀ branch ∈ branches, Reads .branch branch)
    (earlier : List Expression) :
    (within name frames ⟨earlier, []⟩).Takes (branches.flatMap (·.toTokens ++ [Token.bare .bar]))
      (within name frames ⟨branches.reverse ++ earlier, []⟩) := by
  induction branches generalizing earlier with
  | nil => exact takes_nil _
  | cons branch rest ih =>
    obtain ⟨hbranch, hrest⟩ := List.forall_mem_cons.mp hreads
    obtain ⟨terms, hcompletes, htakes⟩ := hbranch name frames earlier
    have hbar := htakes.trans (takes_bar hcompletes.terms_ne_nil)
    rw [Fragment.nextBranch, hcompletes.sequence_eq] at hbar
    rw [List.flatMap_cons, List.reverse_cons, List.append_assoc rest.reverse]
    exact hbar.trans (ih hrest (branch :: earlier))

end Phase

theorem Expression.Shaped.reads {level : Expression.Level} {expression : Expression}
    (hshaped : expression.Shaped .fitting level) : Phase.Reads level expression := by
  induction hshaped with
  | name htoken =>
    exact Phase.reads_of_term fun name frames fragment =>
      Phase.takes_singleton (Phase.stepExpression_nonTerminal htoken)
  | literal htoken =>
    exact Phase.reads_of_term fun name frames fragment =>
      Phase.takes_singleton (Phase.stepExpression_terminal htoken)
  | @enclosed level bracket opening body hopening _ ih =>
    refine Phase.reads_of_term fun name frames fragment => ?_
    obtain ⟨inner, hcompletes, htakes⟩ := ih name (⟨bracket, opening, fragment⟩ :: frames)
    have hopen : (Phase.within name frames fragment).Takes [opening]
        (.within name (⟨bracket, opening, fragment⟩ :: frames) .empty) :=
      Phase.takes_singleton (Phase.stepExpression_opening hopening)
    have hclose := htakes.trans (Phase.takes_closing hcompletes.terms_ne_nil)
    rw [hcompletes.expression_eq] at hclose
    exact hopen.trans hclose
  | malformed _ hproblem => exact hproblem.elim
  | @sequence level terms hlevel hlength _ ih =>
    refine Phase.reads_of_branch hlevel fun name frames branches => ?_
    refine ⟨terms.reverse, Fragment.completesBranch_sequence hlength, ?_⟩
    have htakes : (Phase.within name frames ⟨branches, []⟩).Takes (terms.flatMap Expression.toTokens)
        (.within name frames ⟨branches, terms.reverse ++ []⟩) := Phase.takes_terms ih branches []
    rwa [List.append_nil, ← Expression.toTokens_sequence] at htakes
  | @alternative branches hlength _ ih =>
    intro name frames
    obtain ⟨earlier, last, rfl⟩ : ∃ earlier last, branches = earlier ++ [last] := by
      rcases List.eq_nil_or_concat' branches with rfl | hconcat
      · exact absurd hlength (by decide)
      · exact hconcat
    have hearlier : earlier ≠ [] := by
      rintro rfl
      exact absurd hlength (Nat.not_succ_le_self 1)
    obtain ⟨terms, hcompletes, htakes⟩ := ih last (by simp) name frames earlier.reverse
    refine ⟨⟨earlier.reverse, terms⟩, hcompletes.completes_alternative hearlier, ?_⟩
    have hbranches : (Phase.within name frames .empty).Takes
        (earlier.flatMap (·.toTokens ++ [Token.bare .bar])) (.within name frames ⟨earlier.reverse ++ [], []⟩) :=
      Phase.takes_branches (fun branch hbranch => ih branch (List.mem_append_left _ hbranch)) []
    rw [List.append_nil] at hbranches
    rw [Expression.toTokens_alternative_concat]
    exact hbranches.trans htakes

namespace Phase

theorem events_toTokens {production : Production} (hshaped : production.Shaped .fitting) :
    between.events production.toTokens = [.production production] ∧
      between.after production.toTokens = between := by
  obtain ⟨name, expression⟩ := production
  have hname : name.kind = .nonTerminal := hshaped.heading
  have hstart : between.Takes [name, .bare .equals] (defining name) := by
    constructor
    · rfl
    · simp [events, step, Kind.mismatch, hname]
  change between.events ([name, .bare .equals] ++ (expression.elim [] Expression.toTokens ++ [.bare .terminator])) = _ ∧
    between.after ([name, .bare .equals] ++ (expression.elim [] Expression.toTokens ++ [.bare .terminator])) = _
  rw [events_append, after_append, hstart.after_eq, hstart.events_eq, List.nil_append]
  cases expression with
  | none => exact ⟨rfl, rfl⟩
  | some expression =>
    have hexpression := hshaped.expression expression rfl
    obtain ⟨fragment, hcompletes, htakes⟩ := hexpression.reads name []
    -- the first token of the expression is what tells it from an empty right-hand side
    have hdefining : (defining name).Takes expression.toTokens (within name [] fragment) := by
      obtain ⟨first, rest, htokens, hkept⟩ := hexpression.exists_cons_toTokens
      have hkind : first.kind ≠ .terminator := by
        intro hkind
        rw [hkind] at hkept
        exact absurd hkept (by decide)
      rw [htokens] at htakes ⊢
      have hstep : (defining name).step first = (within name [] .empty).step first := step_defining hkind
      constructor
      · rw [after, List.foldl_cons, hstep]
        exact htakes.after_eq
      · rw [events, hstep]
        exact htakes.events_eq
    have hclose : closeProduction name fragment (.bare .terminator) = [.production ⟨name, some expression⟩] := by
      rw [closeProduction, Fragment.events_eq_nil hcompletes.terms_ne_nil, Kind.mismatch_eq_nil (Token.kind_bare _),
        hcompletes.expression_eq]
      rfl
    rw [Option.elim_some, events_append, after_append, hdefining.after_eq, hdefining.events_eq,
      List.nil_append, ← hclose]
    exact ⟨List.append_nil _, rfl⟩

theorem events_flatMap_toTokens {productions : List Production}
    (hshaped : ∀ production ∈ productions, production.Shaped .fitting) :
    between.events (productions.flatMap Production.toTokens) = productions.map .production ∧
      between.after (productions.flatMap Production.toTokens) = between := by
  induction productions with
  | nil => exact ⟨rfl, rfl⟩
  | cons production rest ih =>
    obtain ⟨hproduction, hrest⟩ := List.forall_mem_cons.mp hshaped
    obtain ⟨hevents, hafter⟩ := events_toTokens hproduction
    obtain ⟨hrestEvents, hrestAfter⟩ := ih hrest
    rw [List.flatMap_cons, events_append, after_append, hafter, hevents, hrestEvents, hrestAfter]
    exact ⟨rfl, rfl⟩

/-! ### What reading depends on -/

variable {phase : Phase} {token : Token}

theorem stepExpression_kept (hclean : Clean (stepExpression name frames fragment token.kept).2) :
    stepExpression name frames fragment token = stepExpression name frames fragment token.kept := by
  rcases token.kind.expression_cases with hkind | hkind | ⟨bracket, hkind⟩ | hkind | hends
  · rw [Token.kept_of_isKept (by rw [hkind]; rfl)]
  · rw [Token.kept_of_isKept (by rw [hkind]; rfl)]
  · rw [Token.kept_of_isKept (by rw [hkind]; rfl)]
  · have hkept : token.kept.kind = .bar := token.kind_kept.trans hkind
    rw [stepExpression_bar hkept] at hclean ⊢
    have hterms := Fragment.clean_events.mp hclean
    rw [stepExpression_bar hkind, Fragment.nextBranch, Fragment.nextBranch, Fragment.events_eq_nil hterms,
      Fragment.events_eq_nil hterms, Fragment.sequence_congr hterms token token.kept]
  · have hkept : token.kept.kind.endsExpression = true := token.kind_kept.symm ▸ hends
    cases frames with
    | nil =>
      rw [stepExpression_closeProduction hkept] at hclean ⊢
      have hterms := (clean_closeProduction.mp hclean).1
      rw [stepExpression_closeProduction hends, closeProduction, closeProduction, Fragment.events_eq_nil hterms,
        Fragment.events_eq_nil hterms, Fragment.expression_congr hterms token token.kept,
        Kind.mismatch_kept (Kind.clean_mismatch.mpr (clean_closeProduction.mp hclean).2)]
    | cons frame frames =>
      rw [stepExpression_closeBracket hkept] at hclean ⊢
      have hterms := (clean_closeBracket.mp hclean).1
      rw [stepExpression_closeBracket hends, closeBracket, closeBracket, Fragment.events_eq_nil hterms,
        Fragment.events_eq_nil hterms, Fragment.expression_congr hterms token token.kept,
        Kind.mismatch_kept (Kind.clean_mismatch.mpr (clean_closeBracket.mp hclean).2)]

theorem step_kept (hclean : Clean (phase.step token.kept).2) : phase.step token = phase.step token.kept := by
  cases phase with
  | between =>
    have hkind := Kind.clean_mismatch.mp hclean
    rw [Token.kind_kept] at hkind
    rw [Token.kept_of_isKept (by rw [hkind]; rfl)]
  | named name => rw [step, step, Kind.mismatch_kept hclean]
  | defining name =>
    by_cases hkind : token.kind = .terminator
    · rw [step_defining_terminator hkind, step_defining_terminator (token.kind_kept.trans hkind)]
    · have hkept : token.kept.kind ≠ .terminator := token.kind_kept.symm ▸ hkind
      rw [step_defining hkept] at hclean ⊢
      rw [step_defining hkind, stepExpression_kept hclean]
  | within name frames fragment => exact stepExpression_kept hclean

/-- What is kept of tokens is enough to read them, if it is read without a problem. -/
theorem read_kept {tokens : List Token} (hclean : Clean (phase.events (tokens.map Token.kept))) :
    phase.events tokens = phase.events (tokens.map Token.kept) ∧
      phase.after tokens = phase.after (tokens.map Token.kept) := by
  induction tokens generalizing phase with
  | nil => exact ⟨rfl, rfl⟩
  | cons token rest ih =>
    rw [List.map_cons, events, clean_append] at hclean
    have hstep := step_kept hclean.1
    obtain ⟨hevents, hafter⟩ := ih hclean.2
    rw [List.map_cons, events, events, hstep, hevents]
    refine ⟨rfl, ?_⟩
    rw [after, List.foldl_cons, hstep]
    exact hafter

end Phase

/-- Fitting productions are determined by what spells them. -/
theorem eq_of_flatMap_toTokens_eq {left right : List Production}
    (hleft : ∀ production ∈ left, production.Shaped .fitting)
    (hright : ∀ production ∈ right, production.Shaped .fitting)
    (htokens : left.flatMap Production.toTokens = right.flatMap Production.toTokens) : left = right := by
  have hevents := (Phase.events_flatMap_toTokens hleft).1
  rw [htokens, (Phase.events_flatMap_toTokens hright).1] at hevents
  exact (List.map_injective_iff.mpr fun _ _ heq => Event.production.inj heq) hevents.symm

end GrammarCheck
