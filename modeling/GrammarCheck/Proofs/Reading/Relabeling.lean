import GrammarCheck.Proofs.Printing.RoundTrip
import GrammarCheck.Proofs.Reading.Definitions
import GrammarCheck.Proofs.Scanning.Prefix
import GrammarCheck.Proofs.Syntax.Relabeling

/-!
# Reading relabeled tokens

The reader decides by the kinds of tokens and by the spellings of names, and keeps everything else of
a token as it is. So it makes of relabeled tokens what it makes of the tokens, relabeled: step by step,
then for a run, and then for the grammar and the diagnostics that the events of a run leave.
-/

namespace GrammarCheck

variable (relabeling : Relabeling)

/-! ### Expressions while they are read -/

namespace Fragment

def relabel (fragment : Fragment) : Fragment :=
  ⟨fragment.branches.map (Expression.relabel relabeling), fragment.terms.map (Expression.relabel relabeling)⟩

variable (fragment : Fragment) (found : Token)

theorem sequence_relabel :
    (fragment.relabel relabeling).sequence (relabeling.token found) = (fragment.sequence found).relabel relabeling := by
  obtain ⟨branches, terms⟩ := fragment
  match terms with
  | [] => exact congrArg _ (relabeling.emptySequenceBefore_eq found).symm
  | [term] => rfl
  | first :: second :: rest =>
    have hterms : (first :: second :: rest).reverse.map (Expression.relabel relabeling) =
        ((first :: second :: rest).map (Expression.relabel relabeling)).reverse := List.map_reverse
    simp only [sequence, relabel, Expression.relabel, Expression.relabelAll_eq_map, hterms, List.map_cons]

theorem expression_relabel :
    (fragment.relabel relabeling).expression (relabeling.token found) =
      (fragment.expression found).relabel relabeling := by
  have hsequence := fragment.sequence_relabel relabeling found
  obtain ⟨branches, terms⟩ := fragment
  cases branches with
  | nil => exact hsequence
  | cons branch rest =>
    change Expression.alternative _ = Expression.relabel relabeling (.alternative _)
    rw [Expression.relabel, Expression.relabelAll_eq_map, List.map_reverse, List.map_cons, hsequence]
    rfl

theorem nextBranch_relabel :
    (fragment.relabel relabeling).nextBranch (relabeling.token found) =
      (fragment.nextBranch found).relabel relabeling := by
  rw [nextBranch, sequence_relabel]
  rfl

end Fragment

def Frame.relabel (frame : Frame) : Frame :=
  ⟨frame.bracket, relabeling.token frame.opening, frame.outer.relabel relabeling⟩

theorem Frame.close_relabel (frame : Frame) (body : Expression) :
    (frame.relabel relabeling).close (body.relabel relabeling) = (frame.close body).relabel relabeling := rfl

/-! ### Events -/

def Event.relabel : Event → Event
  | .problem diagnostic => .problem (relabeling.diagnostic diagnostic)
  | .production completed => .production (completed.relabel relabeling)

theorem Kind.mismatch_relabel (kind : Kind) (found : Token) :
    kind.mismatch (relabeling.token found) = (kind.mismatch found).map (Event.relabel relabeling) := by
  rw [mismatch, mismatch, relabeling.kind_token]
  split
  · rfl
  · rw [List.map_singleton, Event.relabel, relabeling.unexpectedToken_eq]

theorem Fragment.events_relabel (fragment : Fragment) (found : Token) :
    (fragment.relabel relabeling).events (relabeling.token found) =
      (fragment.events found).map (Event.relabel relabeling) := by
  obtain ⟨branches, terms⟩ := fragment
  cases terms with
  | nil => exact congrArg (fun problem => [Event.problem problem]) (relabeling.emptySequenceBefore_eq found).symm
  | cons term rest => rfl

/-! ### Steps -/

namespace Phase

def relabel : Phase → Phase
  | .between => .between
  | .named name => .named (relabeling.token name)
  | .defining name => .defining (relabeling.token name)
  | .within name frames fragment =>
    .within (relabeling.token name) (frames.map (Frame.relabel relabeling)) (fragment.relabel relabeling)

/-- A phase with what has been brought about on the way to it, relabeled. -/
def relabelStep (result : Phase × List Event) : Phase × List Event :=
  (result.1.relabel relabeling, result.2.map (Event.relabel relabeling))

variable (name token stop : Token) (frames : List Frame) (frame : Frame) (fragment : Fragment)

theorem closeBracket_relabel :
    closeBracket (frame.relabel relabeling) (fragment.relabel relabeling) (relabeling.token token) =
      (closeBracket frame fragment token).map (Event.relabel relabeling) := by
  rw [closeBracket, closeBracket, Fragment.events_relabel, Kind.mismatch_relabel, List.map_append]
  rfl

theorem closeProduction_relabel :
    closeProduction (relabeling.token name) (fragment.relabel relabeling) (relabeling.token token) =
      (closeProduction name fragment token).map (Event.relabel relabeling) := by
  rw [closeProduction, closeProduction, Fragment.events_relabel, Kind.mismatch_relabel, Fragment.expression_relabel,
    List.map_append, List.map_append]
  rfl

/-- The cases are the five effects of a token within an expression. -/
theorem stepExpression_relabel :
    stepExpression (relabeling.token name) (frames.map (Frame.relabel relabeling)) (fragment.relabel relabeling)
        (relabeling.token token) =
      relabelStep relabeling (stepExpression name frames fragment token) := by
  have hsame := relabeling.kind_token token
  rcases token.kind.expression_cases with hkind | hkind | ⟨bracket, hkind⟩ | hkind | hends
  · rw [stepExpression_nonTerminal hkind, stepExpression_nonTerminal (hsame.trans hkind)]
    rfl
  · rw [stepExpression_terminal hkind, stepExpression_terminal (hsame.trans hkind)]
    rfl
  · rw [stepExpression_opening hkind, stepExpression_opening (hsame.trans hkind)]
    rfl
  · rw [stepExpression_bar hkind, stepExpression_bar (hsame.trans hkind), Fragment.nextBranch_relabel,
      Fragment.events_relabel]
    rfl
  · have hends' : (relabeling.token token).kind.endsExpression = true := hsame.symm ▸ hends
    cases frames with
    | nil =>
      rw [List.map_nil, stepExpression_closeProduction hends, stepExpression_closeProduction hends',
        closeProduction_relabel]
      rfl
    | cons frame frames =>
      rw [List.map_cons, stepExpression_closeBracket hends, stepExpression_closeBracket hends', closeBracket_relabel,
        Fragment.expression_relabel, Frame.close_relabel]
      rfl

theorem step_relabel (phase : Phase) :
    (phase.relabel relabeling).step (relabeling.token token) = relabelStep relabeling (phase.step token) := by
  cases phase with
  | between => exact congrArg (Prod.mk _) (Kind.mismatch_relabel relabeling .nonTerminal token)
  | named name => exact congrArg (Prod.mk _) (Kind.mismatch_relabel relabeling .equals token)
  | defining name =>
    have hsame := relabeling.kind_token token
    rw [relabel]
    by_cases hkind : token.kind = .terminator
    · rw [step_defining_terminator hkind, step_defining_terminator (hsame.trans hkind)]
      rfl
    · rw [step_defining hkind, step_defining (hsame.symm ▸ hkind)]
      exact stepExpression_relabel relabeling name token [] .empty
  | within name frames fragment => exact stepExpression_relabel relabeling name token frames fragment

/-- By induction on the open brackets, each of which becomes a term of what is around it. -/
theorem finishExpression_relabel :
    finishExpression (relabeling.token name) (frames.map (Frame.relabel relabeling)) (fragment.relabel relabeling)
        (relabeling.token stop) =
      (finishExpression name frames fragment stop).map (Event.relabel relabeling) := by
  induction frames generalizing fragment with
  | nil => exact closeProduction_relabel relabeling name stop fragment
  | cons frame frames ih =>
    rw [List.map_cons, finishExpression, finishExpression, List.map_append, closeBracket_relabel,
      Fragment.expression_relabel, Frame.close_relabel, ih]

theorem finish_relabel (phase : Phase) :
    (phase.relabel relabeling).finish (relabeling.token stop) = (phase.finish stop).map (Event.relabel relabeling) := by
  cases phase with
  | between => rfl
  | named name =>
    have hexpression := finishExpression_relabel relabeling name stop [] .empty
    rw [finish, List.map_append, ← hexpression, ← Kind.mismatch_relabel]
    rfl
  | defining name => exact finishExpression_relabel relabeling name stop [] .empty
  | within name frames fragment => exact finishExpression_relabel relabeling name stop frames fragment

/-! ### Runs -/

theorem outcome_relabel (phase : Phase) (tokens : List Token) :
    (phase.relabel relabeling).outcome (tokens.map relabeling.token) (relabeling.token stop) =
      (phase.outcome tokens stop).map (Event.relabel relabeling) := by
  induction tokens generalizing phase with
  | nil => exact finish_relabel relabeling stop phase
  | cons token rest ih =>
    rw [List.map_cons, outcome_cons, outcome_cons, List.map_append, step_relabel, ← ih]
    rfl

end Phase

namespace Reading

def relabel (reading : Reading) : Reading where
  grammar := reading.grammar.relabel relabeling
  definitions := reading.definitions.map (Production.relabel relabeling)
  diagnostics := reading.diagnostics.map relabeling.diagnostic

theorem ofEvents_relabel (grammar : Grammar) (events : List Event) :
    ofEvents (grammar.relabel relabeling) (events.map (Event.relabel relabeling)) =
      (ofEvents grammar events).relabel relabeling := by
  have hspelling (production : Production) :
      (production.relabel relabeling).name.spelling = production.name.spelling :=
    relabeling.spelling_token production.name
  have hname (production : Production) : (production.relabel relabeling).name.kind = production.name.kind :=
    relabeling.kind_token production.name
  fun_induction ofEvents grammar events with
  | case1 grammar => rfl
  | case2 grammar problem rest ih =>
    rw [List.map_cons, Event.relabel, ofEvents, ih]
    rfl
  | case3 grammar production rest hkind previous hfind ih =>
    have hprevious : (grammar.relabel relabeling).find? (production.relabel relabeling).name.spelling =
        some (previous.relabel relabeling) := by
      rw [hspelling, Grammar.find?_relabel, hfind, Option.map_some]
    rw [List.map_cons, Event.relabel, ofEvents_repeated ((hname production).trans hkind) hprevious, ih, hspelling,
      Production.name_relabel, Production.name_relabel, ← relabeling.duplicateProduction_eq]
    rfl
  | case4 grammar production rest hkind hfind ih =>
    have hnew : (grammar.relabel relabeling).find? (production.relabel relabeling).name.spelling = none := by
      rw [hspelling, Grammar.find?_relabel, hfind, Option.map_none]
    rw [List.map_cons, Event.relabel, ofEvents_new ((hname production).trans hkind) hnew, hspelling,
      ← Grammar.relabel_insert, ih]
    rfl
  | case5 grammar production rest hkind ih =>
    have hother : (production.relabel relabeling).name.kind ≠ .nonTerminal := (hname production).symm ▸ hkind
    rw [List.map_cons, Event.relabel, ofEvents_unnamed hother, ih]

/-- The tokens of a source end with the only one that ends the input, so that there are none after it. -/
theorem ofTokens_map_scan (source : List UInt8) :
    ofTokens ((scan source).map relabeling.token) = (ofSource source).relabel relabeling := by
  have hends (token : Token) : (relabeling.token token).isEndOfInput = token.isEndOfInput := by
    rw [Token.isEndOfInput, Token.isEndOfInput, relabeling.kind_token]
  obtain ⟨read, stop, hscan, hread, hstop⟩ := exists_scan_eq_concat source
  have hstream := ofTokens_concat_stop hread hstop
  have hrelabeled : TokenStream.ofTokens ((read ++ [stop]).map relabeling.token) =
      ⟨read.map relabeling.token, relabeling.token stop, []⟩ := by
    rw [List.map_append, List.map_singleton]
    refine ofTokens_concat_stop (List.forall_mem_map.2 ?_) ((hends stop).trans hstop)
    exact fun token hmem => (hends token).trans (hread token hmem)
  have hevents : TokenStream.events ⟨read.map relabeling.token, relabeling.token stop, []⟩ =
      (TokenStream.events ⟨read, stop, []⟩).map (Event.relabel relabeling) :=
    Phase.outcome_relabel relabeling stop .between read
  have hreading : ofEvents .empty ((TokenStream.events ⟨read, stop, []⟩).map (Event.relabel relabeling)) =
      (ofEvents .empty (TokenStream.events ⟨read, stop, []⟩)).relabel relabeling :=
    ofEvents_relabel relabeling .empty _
  rw [ofSource, hscan, ofTokens, ofTokens, hrelabeled, hstream, hevents, hreading]
  simp only [trailingProblems, List.append_nil]

/-- Sources with the same tokens are read in the same way, as far as the tokens are the same. -/
theorem relabel_ofSource_eq_of_scan {source other : List UInt8}
    (hscan : (scan source).map relabeling.token = (scan other).map relabeling.token) :
    (ofSource source).relabel relabeling = (ofSource other).relabel relabeling := by
  rw [← ofTokens_map_scan, ← ofTokens_map_scan, hscan]

end Reading

end GrammarCheck
