import GrammarCheck.Proofs.Reading.Definitions
import GrammarCheck.Proofs.Reading.View
import Mathlib.Data.List.Flatten
import Mathlib.Data.List.Perm.Subperm

/-!
# Missing terms

Where a term is missing, the reader reports a problem and puts the problem into the expression. Both
happen in the same step, so that at any time the problems reported so far are those in the productions
that are complete and those in what has been read of the next one. A whole run leaves no problem in
between: the productions hold the problems with missing terms exactly as they were reported.
-/

namespace GrammarCheck

/-! ### Problems in expressions -/

namespace Expression

def Occurrence.problem? : Occurrence → Option Diagnostic
  | .problem diagnostic => some diagnostic
  | .reference _ => none

/-- The problems in the expression at any depth, from left to right. -/
def problems (expression : Expression) : List Diagnostic := expression.occurrences.filterMap Occurrence.problem?

theorem occurrencesAll_eq_flatMap (expressions : List Expression) :
    occurrencesAll expressions = expressions.flatMap occurrences := by
  induction expressions with
  | nil => rfl
  | cons expression rest ih => rw [occurrencesAll, ih, List.flatMap_cons]

theorem filterMap_problem?_occurrencesAll (expressions : List Expression) :
    (occurrencesAll expressions).filterMap Occurrence.problem? = expressions.flatMap problems := by
  rw [occurrencesAll_eq_flatMap, List.filterMap_flatMap]
  rfl

@[simp] theorem problems_alternative (branches : List Expression) :
    (Expression.alternative branches).problems = branches.flatMap problems := by
  rw [problems, occurrences, filterMap_problem?_occurrencesAll]

@[simp] theorem problems_sequence (terms : List Expression) :
    (Expression.sequence terms).problems = terms.flatMap problems := by
  rw [problems, occurrences, filterMap_problem?_occurrencesAll]

@[simp] theorem problems_enclosed (bracket : Bracket) (opening : Token) (body : Expression) :
    (Expression.enclosed bracket opening body).problems = body.problems := by
  rw [problems, occurrences, problems]

@[simp] theorem problems_name (token : Token) : (Expression.name token).problems = [] := rfl

@[simp] theorem problems_literal (token : Token) : (Expression.literal token).problems = [] := rfl

@[simp] theorem problems_malformed (found : Token) (problem : Diagnostic) :
    (Expression.malformed found problem).problems = [problem] := rfl

end Expression

/-- The problems in the right-hand side, from left to right. -/
def Production.problems (production : Production) : List Diagnostic :=
  production.occurrences.filterMap Expression.Occurrence.problem?

theorem Production.problems_some (name : Token) (expression : Expression) :
    (Production.mk name (some expression)).problems = expression.problems := rfl

/-! ### Problems in what has been read -/

/-- The problems, as a view of expressions. A missing term shows its problem. -/
def Expression.problemView : Expression.View Diagnostic := ⟨problems, problems_alternative, problems_sequence⟩

namespace Fragment

/-- The problems in the fragment in the order of the source. -/
def problems (fragment : Fragment) : List Diagnostic :=
  fragment.branches.reverse.flatMap Expression.problems ++ fragment.terms.reverse.flatMap Expression.problems

variable (fragment : Fragment) (found : Token)

theorem problems_expression :
    (fragment.expression found).problems = fragment.problems ++ fragment.sequenceProblems found :=
  fragment.viewed_expression Expression.problemView found

theorem problems_nextBranch :
    (fragment.nextBranch found).problems = fragment.problems ++ fragment.sequenceProblems found :=
  fragment.viewed_nextBranch Expression.problemView found

@[simp] theorem problems_empty : empty.problems = [] := rfl

@[simp] theorem problems_push (term : Expression) : (fragment.push term).problems = fragment.problems ++ term.problems :=
  fragment.viewed_push Expression.problemView term

end Fragment

theorem Frame.problems_close (frame : Frame) (body : Expression) :
    (frame.close body).problems = frame.outer.problems ++ body.problems := by
  simp [close]

/-! ### Reported problems -/

/-- The problem that the event reports, if it is a missing term. -/
def Event.missingTerm? : Event → Option Diagnostic
  | .problem (.emptySequence position found) => some (.emptySequence position found)
  | _ => none

def missingTermsOf (events : List Event) : List Diagnostic := events.filterMap Event.missingTerm?

theorem missingTermsOf_append (first second : List Event) :
    missingTermsOf (first ++ second) = missingTermsOf first ++ missingTermsOf second :=
  List.filterMap_append

theorem Kind.missingTermsOf_mismatch (kind : Kind) (found : Token) : missingTermsOf (kind.mismatch found) = [] := by
  rw [mismatch]
  split <;> rfl

theorem Fragment.missingTermsOf_events (fragment : Fragment) (found : Token) :
    missingTermsOf (fragment.events found) = fragment.sequenceProblems found := by
  rw [Fragment.events, sequenceProblems]
  split <;> rfl

theorem exists_emptySequence_of_mem {events : List Event} {problem : Diagnostic} (hmem : problem ∈ missingTermsOf events) :
    ∃ position found, problem = .emptySequence position found := by
  obtain ⟨event, _, hevent⟩ := List.mem_filterMap.1 hmem
  unfold Event.missingTerm? at hevent
  split at hevent
  · next position found _ => exact ⟨position, found, (Option.some.inj hevent).symm⟩
  · contradiction

/-- The problems in the productions that events complete. -/
def completedProblems (events : List Event) : List Diagnostic := (productionsOf events).flatMap Production.problems

theorem completedProblems_append (first second : List Event) :
    completedProblems (first ++ second) = completedProblems first ++ completedProblems second := by
  rw [completedProblems, productionsOf_append, List.flatMap_append, completedProblems, completedProblems]

theorem completedProblems_of_productionsOf_eq_nil {events : List Event} (hnone : productionsOf events = []) :
    completedProblems events = [] := by
  rw [completedProblems, hnone, List.flatMap_nil]

namespace Phase

variable (name token stop : Token) (frames : List Frame) (frame : Frame) (fragment : Fragment)

theorem missingTermsOf_closeBracket :
    missingTermsOf (closeBracket frame fragment token) = fragment.sequenceProblems token := by
  rw [closeBracket, missingTermsOf_append, Fragment.missingTermsOf_events, Kind.missingTermsOf_mismatch, List.append_nil]

theorem missingTermsOf_closeProduction :
    missingTermsOf (closeProduction name fragment token) = fragment.sequenceProblems token := by
  rw [closeProduction, missingTermsOf_append, missingTermsOf_append, Fragment.missingTermsOf_events,
    Kind.missingTermsOf_mismatch, List.append_nil]
  exact List.append_nil _

theorem completedProblems_closeProduction :
    completedProblems (closeProduction name fragment token) = fragment.problems ++ fragment.sequenceProblems token := by
  rw [completedProblems, productionsOf_closeProduction, List.flatMap_singleton, Production.problems_some,
    Fragment.problems_expression]

/-! ### Steps -/

/-- The problems in what has been read of the production, outer brackets first. -/
def problems : Phase → List Diagnostic
  | .between | .named _ | .defining _ => []
  | .within _ frames fragment => frames.reverse.flatMap (·.outer.problems) ++ fragment.problems

/-- A step puts the problems that it reports at the end of those in what has been read. -/
def KeepsProblems (phase : Phase) (result : Phase × List Event) : Prop :=
  completedProblems result.2 ++ result.1.problems = phase.problems ++ missingTermsOf result.2

theorem keepsProblems_stepExpression :
    KeepsProblems (.within name frames fragment) (stepExpression name frames fragment token) := by
  rcases token.kind.expression_cases with hkind | hkind | ⟨bracket, hkind⟩ | hkind | hends
  · rw [stepExpression_nonTerminal hkind]
    simp [KeepsProblems, problems, completedProblems, productionsOf, missingTermsOf]
  · rw [stepExpression_terminal hkind]
    simp [KeepsProblems, problems, completedProblems, productionsOf, missingTermsOf]
  · rw [stepExpression_opening hkind]
    simp [KeepsProblems, problems, completedProblems, productionsOf, missingTermsOf]
  · rw [stepExpression_bar hkind, KeepsProblems, Fragment.missingTermsOf_events,
      completedProblems_of_productionsOf_eq_nil (fragment.productionsOf_events token), problems, problems,
      Fragment.problems_nextBranch, List.nil_append, List.append_assoc]
  · cases frames with
    | nil =>
      rw [stepExpression_closeProduction hends, KeepsProblems, completedProblems_closeProduction,
        missingTermsOf_closeProduction]
      exact List.append_nil _
    | cons frame frames =>
      rw [stepExpression_closeBracket hends, KeepsProblems, missingTermsOf_closeBracket,
        completedProblems_of_productionsOf_eq_nil productionsOf_closeBracket, problems, problems, Frame.problems_close,
        Fragment.problems_expression]
      simp

theorem keepsProblems_step (phase : Phase) : phase.KeepsProblems (phase.step token) := by
  cases phase with
  | between =>
    rw [KeepsProblems, step, Kind.missingTermsOf_mismatch,
      completedProblems_of_productionsOf_eq_nil (Kind.productionsOf_mismatch _ _)]
    rfl
  | named name =>
    rw [KeepsProblems, step, Kind.missingTermsOf_mismatch,
      completedProblems_of_productionsOf_eq_nil (Kind.productionsOf_mismatch _ _)]
    rfl
  | defining name =>
    by_cases hkind : token.kind = .terminator
    · rw [step_defining_terminator hkind]
      rfl
    · rw [step_defining hkind]
      exact keepsProblems_stepExpression name token [] .empty
  | within name frames fragment => exact keepsProblems_stepExpression name token frames fragment

/-- By induction on the open brackets, each of which becomes a term of what is around it. -/
theorem completedProblems_finishExpression :
    completedProblems (finishExpression name frames fragment stop) =
      (within name frames fragment).problems ++ missingTermsOf (finishExpression name frames fragment stop) := by
  induction frames generalizing fragment with
  | nil =>
    rw [finishExpression, completedProblems_closeProduction, missingTermsOf_closeProduction]
    rfl
  | cons frame frames ih =>
    rw [finishExpression, completedProblems_append, missingTermsOf_append, ih, missingTermsOf_closeBracket,
      completedProblems_of_productionsOf_eq_nil productionsOf_closeBracket, problems, problems, Frame.problems_close,
      Fragment.problems_expression]
    simp

theorem completedProblems_finish (phase : Phase) :
    completedProblems (phase.finish stop) = phase.problems ++ missingTermsOf (phase.finish stop) := by
  cases phase with
  | between => rfl
  | named name =>
    rw [finish, completedProblems_append, missingTermsOf_append, Kind.missingTermsOf_mismatch,
      completedProblems_of_productionsOf_eq_nil (Kind.productionsOf_mismatch _ _)]
    exact completedProblems_finishExpression name stop [] .empty
  | defining name => exact completedProblems_finishExpression name stop [] .empty
  | within name frames fragment => exact completedProblems_finishExpression name stop frames fragment

/-! ### Runs -/

theorem completedProblems_outcome (phase : Phase) (tokens : List Token) :
    completedProblems (phase.outcome tokens stop) = phase.problems ++ missingTermsOf (phase.outcome tokens stop) := by
  induction tokens generalizing phase with
  | nil => exact completedProblems_finish stop phase
  | cons token rest ih =>
    have hstep := keepsProblems_step token phase
    rw [KeepsProblems] at hstep
    rw [outcome_cons, completedProblems_append, missingTermsOf_append, ih, ← List.append_assoc, hstep, List.append_assoc]

end Phase

/-- The productions of a stream hold the problems with missing terms as they are reported. -/
theorem TokenStream.completedProblems_events (stream : TokenStream) :
    completedProblems stream.events = missingTermsOf stream.events :=
  Phase.completedProblems_outcome stream.stop .between stream.body

/-! ### What is read -/

namespace Reading

theorem sublist_diagnostics_ofEvents (grammar : Grammar) (events : List Event) :
    (missingTermsOf events).Sublist (ofEvents grammar events).diagnostics := by
  fun_induction ofEvents grammar events with
  | case1 => exact List.Sublist.refl _
  | case2 grammar problem rest ih =>
    rw [diagnostics_report]
    cases problem with
    | emptySequence position found => exact ih.cons_cons _
    | _ => exact ih.cons _
  | case3 grammar production rest _ previous _ ih => exact ih.cons _
  | case4 grammar production rest _ _ ih => exact ih
  | case5 grammar production rest _ ih => exact ih

/-- The problems in the productions of a grammar are reported when it is read, none more often than there. -/
theorem subperm_diagnostics_ofTokens (tokens : List Token) :
    ((ofTokens tokens).grammar.productions.flatMap Production.problems).Subperm
      (missingTermsOf (TokenStream.ofTokens tokens).events) := by
  have hdefinitions := (sublist_definitions .empty (TokenStream.ofTokens tokens).events).flatMap Production.problems
  have hevents := (TokenStream.ofTokens tokens).completedProblems_events
  rw [completedProblems] at hevents
  rw [hevents] at hdefinitions
  exact ((productions_ofTokens_perm tokens).flatMap_right _).subperm.trans hdefinitions.subperm

end Reading

end GrammarCheck
