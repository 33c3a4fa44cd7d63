import GrammarCheck.Proofs.Reading.MissingTerms
import GrammarCheck.Proofs.Reading.Shape

/-!
# Where diagnostics arise, and how many there are

Each problem arises at a token, and the problems come in the order of their tokens. A token is taken
once, and taking it causes at most two problems: a term is missing before it, and it is not the one
needed. Only the end of input may cause more, one for each bracket that it leaves open. These have been
paid for by the tokens that opened the brackets, which cause no problem.
-/

namespace GrammarCheck

/-! ### Problems among events -/

namespace Diagnostic

/-- Whether the problem arises at a token that is read. -/
def isAtToken : Diagnostic → Bool
  | .unexpected .. | .emptySequence .. => true
  | _ => false

def isMissingTerm : Diagnostic → Bool
  | .emptySequence .. => true
  | _ => false

def isTrailing : Diagnostic → Bool
  | .trailingTokens .. => true
  | _ => false

theorem ArisesAt.isAtToken {token : Token} {problem : Diagnostic} (harises : problem.ArisesAt token) :
    problem.isAtToken = true := by
  cases harises <;> rfl

end Diagnostic

def Event.problem? : Event → Option Diagnostic
  | .problem diagnostic => some diagnostic
  | .production _ => none

def problemsOf (events : List Event) : List Diagnostic := events.filterMap Event.problem?

theorem problemsOf_append (first second : List Event) :
    problemsOf (first ++ second) = problemsOf first ++ problemsOf second :=
  List.filterMap_append

theorem mem_problemsOf_iff {events : List Event} {problem : Diagnostic} :
    problem ∈ problemsOf events ↔ .problem problem ∈ events := by
  rw [problemsOf, List.mem_filterMap]
  constructor
  · intro ⟨event, hmem, hproblem⟩
    cases event with
    | problem diagnostic => exact Option.some.inj hproblem ▸ hmem
    | production completed => contradiction
  · exact fun hmem => ⟨.problem problem, hmem, rfl⟩

theorem filter_isMissingTerm_problemsOf (events : List Event) :
    (problemsOf events).filter Diagnostic.isMissingTerm = missingTermsOf events := by
  rw [problemsOf, missingTermsOf, List.filter_filterMap]
  congr 1
  funext event
  cases event with
  | problem diagnostic => cases diagnostic <;> rfl
  | production completed => rfl

theorem Kind.sublist_problemsOf_mismatch (kind : Kind) (found : Token) :
    (problemsOf (kind.mismatch found)).Sublist [.unexpectedToken kind.label found] := by
  rw [mismatch]
  split
  · exact List.nil_sublist _
  · exact List.Sublist.refl _

theorem Fragment.sublist_problemsOf_events (fragment : Fragment) (found : Token) :
    (problemsOf (fragment.events found)).Sublist [.emptySequenceBefore found] := by
  rw [events, sequenceProblems]
  split
  · exact List.Sublist.refl _
  · exact List.nil_sublist _

namespace Phase

variable (name token stop : Token) (frames : List Frame) (frame : Frame) (fragment : Fragment)

/-- The problems at the token are among these: a term is missing before it, and it is not of a kind. -/
def CausesAtMost (token : Token) (kind : Kind) (events : List Event) : Prop :=
  (problemsOf events).Sublist [.emptySequenceBefore token, .unexpectedToken kind.label token]

theorem causesAtMost_mismatch (kind : Kind) : CausesAtMost token kind (kind.mismatch token) :=
  (kind.sublist_problemsOf_mismatch token).cons _

theorem causesAtMost_events (kind : Kind) : CausesAtMost token kind (fragment.events token) :=
  (fragment.sublist_problemsOf_events token).trans (List.sublist_append_left [_] [_])

theorem causesAtMost_closeBracket :
    CausesAtMost token (.closing frame.bracket) (closeBracket frame fragment token) := by
  rw [CausesAtMost, closeBracket, problemsOf_append]
  exact (fragment.sublist_problemsOf_events token).append (Kind.sublist_problemsOf_mismatch _ token)

theorem causesAtMost_closeProduction :
    CausesAtMost token .terminator (closeProduction name fragment token) := by
  have hnone (completed : Production) : problemsOf [.production completed] = [] := rfl
  rw [CausesAtMost, closeProduction, problemsOf_append, problemsOf_append, hnone, List.append_nil]
  exact (fragment.sublist_problemsOf_events token).append (Kind.sublist_problemsOf_mismatch _ token)

theorem exists_causesAtMost_stepExpression :
    ∃ kind, CausesAtMost token kind (stepExpression name frames fragment token).2 := by
  rcases token.kind.expression_cases with hkind | hkind | ⟨bracket, hkind⟩ | hkind | hends
  · rw [stepExpression_nonTerminal hkind]
    exact ⟨.nonTerminal, List.nil_sublist _⟩
  · rw [stepExpression_terminal hkind]
    exact ⟨.terminal, List.nil_sublist _⟩
  · rw [stepExpression_opening hkind]
    exact ⟨.opening bracket, List.nil_sublist _⟩
  · rw [stepExpression_bar hkind]
    exact ⟨.bar, causesAtMost_events token fragment .bar⟩
  · cases frames with
    | nil =>
      rw [stepExpression_closeProduction hends]
      exact ⟨_, causesAtMost_closeProduction name token fragment⟩
    | cons frame frames =>
      rw [stepExpression_closeBracket hends]
      exact ⟨_, causesAtMost_closeBracket token frame fragment⟩

theorem exists_causesAtMost_step (phase : Phase) : ∃ kind, CausesAtMost token kind (phase.step token).2 := by
  cases phase with
  | between => exact ⟨_, causesAtMost_mismatch token .nonTerminal⟩
  | named name => exact ⟨_, causesAtMost_mismatch token .equals⟩
  | defining name =>
    by_cases hkind : token.kind = .terminator
    · rw [step_defining_terminator hkind]
      exact ⟨.terminator, List.nil_sublist _⟩
    · rw [step_defining hkind]
      exact exists_causesAtMost_stepExpression name token [] .empty
  | within name frames fragment => exact exists_causesAtMost_stepExpression name token frames fragment

/-- By induction on the open brackets. Once the innermost one has a term, so have those around it. -/
theorem missingTermsOf_finishExpression :
    missingTermsOf (finishExpression name frames fragment stop) = fragment.sequenceProblems stop := by
  induction frames generalizing fragment with
  | nil => exact missingTermsOf_closeProduction name stop fragment
  | cons frame frames ih =>
    rw [finishExpression, missingTermsOf_append, missingTermsOf_closeBracket, ih]
    exact List.append_nil _

theorem length_missingTermsOf_finish_le (phase : Phase) : (missingTermsOf (phase.finish stop)).length ≤ 1 := by
  have hexpression (name : Token) (frames : List Frame) (fragment : Fragment) :
      (missingTermsOf (finishExpression name frames fragment stop)).length ≤ 1 := by
    rw [missingTermsOf_finishExpression, Fragment.sequenceProblems]
    split
    · exact Nat.le_refl 1
    · exact Nat.zero_le 1
  cases phase with
  | between => exact Nat.zero_le 1
  | named name =>
    rw [finish, missingTermsOf_append, Kind.missingTermsOf_mismatch, List.nil_append]
    exact hexpression name [] .empty
  | defining name => exact hexpression name [] .empty
  | within name frames fragment => exact hexpression name frames fragment

theorem arisesAt_of_mem_finish {phase : Phase} {problem : Diagnostic} {stop : Token} (hstop : ¬stop.kind.BeginsTerm)
    (hmem : .problem problem ∈ phase.finish stop) : problem.ArisesAt stop := by
  obtain ⟨events, expression, hfinish, hevents⟩ := exists_finish phase hstop
  rw [hfinish, List.mem_append] at hmem
  have hproblem : .problem problem ∈ events := by
    refine hmem.resolve_right fun hproduction => ?_
    obtain ⟨_, _, heq⟩ := List.mem_map.1 hproduction
    contradiction
  obtain ⟨token, htoken, harises⟩ := hevents _ hproblem
  rwa [← List.mem_singleton.1 htoken]

/-! ### Problems with the places of their tokens -/

/-- The problems of a run, each with the number of tokens before the one at which it arises. -/
def placed (phase : Phase) (index : Nat) : List Token → Token → List (Nat × Diagnostic)
  | [], stop => (problemsOf (phase.finish stop)).map (Prod.mk index)
  | token :: rest, stop =>
    (problemsOf (phase.step token).2).map (Prod.mk index) ++ (phase.step token).1.placed (index + 1) rest stop

variable {stop}

theorem map_snd_placed (phase : Phase) (index : Nat) (tokens : List Token) :
    (phase.placed index tokens stop).map Prod.snd = problemsOf (phase.outcome tokens stop) := by
  have hsnd (problems : List Diagnostic) (index : Nat) : (problems.map (Prod.mk index)).map Prod.snd = problems := by
    rw [List.map_map]
    exact List.map_id problems
  induction tokens generalizing phase index with
  | nil => exact hsnd _ index
  | cons token rest ih => rw [placed, List.map_append, hsnd, ih, outcome_cons, problemsOf_append]

theorem le_of_mem_placed (phase : Phase) (index : Nat) (tokens : List Token) :
    ∀ entry ∈ phase.placed index tokens stop, index ≤ entry.1 := by
  induction tokens generalizing phase index with
  | nil => exact List.forall_mem_map.2 fun _ _ => Nat.le_refl index
  | cons token rest ih =>
    intro entry hmem
    rcases List.mem_append.1 hmem with hnow | hlater
    · obtain ⟨_, _, rfl⟩ := List.mem_map.1 hnow
      exact Nat.le_refl index
    · exact Nat.le_of_succ_le (ih _ (index + 1) entry hlater)

theorem pairwise_placed (phase : Phase) (index : Nat) (tokens : List Token) :
    (phase.placed index tokens stop).Pairwise (·.1 ≤ ·.1) := by
  have hgroup (problems : List Diagnostic) (index : Nat) : (problems.map (Prod.mk index)).Pairwise (·.1 ≤ ·.1) :=
    List.pairwise_map.2 (List.pairwise_of_forall fun _ _ => Nat.le_refl index)
  induction tokens generalizing phase index with
  | nil => exact hgroup _ index
  | cons token rest ih =>
    refine List.pairwise_append.2 ⟨hgroup _ index, ih _ (index + 1), ?_⟩
    intro entry hnow later hlater
    obtain ⟨_, _, rfl⟩ := List.mem_map.1 hnow
    exact Nat.le_of_succ_le (le_of_mem_placed _ (index + 1) rest later hlater)

/-- The token of a problem is as many tokens after the first one as its place says. -/
theorem exists_arisesAt_of_mem_placed (hstop : ¬stop.kind.BeginsTerm) (phase : Phase) (index : Nat)
    (tokens : List Token) :
    ∀ entry ∈ phase.placed index tokens stop, ∃ offset token, entry.1 = index + offset ∧
      (tokens ++ [stop])[offset]? = some token ∧ entry.2.ArisesAt token := by
  induction tokens generalizing phase index with
  | nil =>
    refine List.forall_mem_map.2 fun problem hmem => ⟨0, stop, rfl, rfl, ?_⟩
    exact arisesAt_of_mem_finish hstop (mem_problemsOf_iff.1 hmem)
  | cons token rest ih =>
    intro entry hmem
    rcases List.mem_append.1 hmem with hnow | hlater
    · obtain ⟨problem, hproblem, rfl⟩ := List.mem_map.1 hnow
      exact ⟨0, token, rfl, rfl, arisesAt_of_mem_step (mem_problemsOf_iff.1 hproblem)⟩
    · obtain ⟨offset, other, hindex, hother, harises⟩ := ih _ (index + 1) entry hlater
      exact ⟨offset + 1, other, by omega, hother, harises⟩

end Phase

/-- The diagnostics with the place. -/
def diagnosticsAt (index : Nat) (placed : List (Nat × Diagnostic)) : List Diagnostic :=
  (placed.filter (·.1 == index)).map Prod.snd

theorem diagnosticsAt_append (index : Nat) (first second : List (Nat × Diagnostic)) :
    diagnosticsAt index (first ++ second) = diagnosticsAt index first ++ diagnosticsAt index second := by
  rw [diagnosticsAt, List.filter_append, List.map_append, diagnosticsAt, diagnosticsAt]

theorem diagnosticsAt_eq_nil {index : Nat} {placed : List (Nat × Diagnostic)}
    (hother : ∀ entry ∈ placed, entry.1 ≠ index) :
    diagnosticsAt index placed = [] := by
  have hnone : placed.filter (·.1 == index) = [] := by
    apply List.filter_eq_nil_iff.2
    intro entry hmem
    simp [hother entry hmem]
  rw [diagnosticsAt, hnone, List.map_nil]

theorem diagnosticsAt_map (index : Nat) (problems : List Diagnostic) :
    diagnosticsAt index (problems.map (Prod.mk index)) = problems := by
  have hall : (problems.map (Prod.mk index)).filter (·.1 == index) = problems.map (Prod.mk index) := by
    apply List.filter_eq_self.2
    exact List.forall_mem_map.2 fun _ _ => beq_self_eq_true index
  rw [diagnosticsAt, hall, List.map_map]
  exact List.map_id problems

namespace Phase

variable {stop : Token}

theorem diagnosticsAt_placed_now (phase : Phase) (index : Nat) (token : Token) (rest : List Token) :
    diagnosticsAt index (phase.placed index (token :: rest) stop) = problemsOf (phase.step token).2 := by
  have hlater : diagnosticsAt index ((phase.step token).1.placed (index + 1) rest stop) = [] := by
    apply diagnosticsAt_eq_nil
    exact fun entry hmem => Nat.ne_of_gt (le_of_mem_placed _ (index + 1) rest entry hmem)
  rw [placed, diagnosticsAt_append, diagnosticsAt_map, hlater, List.append_nil]

theorem diagnosticsAt_placed_later (phase : Phase) {index place : Nat} (hlater : index < place) (token : Token)
    (rest : List Token) :
    diagnosticsAt place (phase.placed index (token :: rest) stop) =
      diagnosticsAt place ((phase.step token).1.placed (index + 1) rest stop) := by
  have hnow : diagnosticsAt place ((problemsOf (phase.step token).2).map (Prod.mk index)) = [] := by
    apply diagnosticsAt_eq_nil
    exact List.forall_mem_map.2 fun _ _ => Nat.ne_of_lt hlater
  rw [placed, diagnosticsAt_append, hnow, List.nil_append]

theorem diagnosticsAt_placed_length (phase : Phase) (stop : Token) (index : Nat) (tokens : List Token) :
    diagnosticsAt (index + tokens.length) (phase.placed index tokens stop) =
      problemsOf ((phase.after tokens).finish stop) := by
  induction tokens generalizing phase index with
  | nil => exact diagnosticsAt_map index _
  | cons token rest ih =>
    have hplace : index + (token :: rest).length = index + 1 + rest.length := by
      rw [List.length_cons]
      omega
    rw [hplace, diagnosticsAt_placed_later phase (by omega), ih]
    rfl

theorem exists_causesAtMost_placed (phase : Phase) (stop : Token) (index : Nat) (tokens : List Token) {offset : Nat}
    {token : Token}
    (htoken : tokens[offset]? = some token) :
    ∃ kind : Kind, (diagnosticsAt (index + offset) (phase.placed index tokens stop)).Sublist
      [.emptySequenceBefore token, .unexpectedToken kind.label token] := by
  induction tokens generalizing phase index offset with
  | nil => contradiction
  | cons first rest ih =>
    cases offset with
    | zero =>
      obtain rfl := Option.some.inj htoken
      rw [Nat.add_zero, diagnosticsAt_placed_now]
      exact exists_causesAtMost_step first phase
    | succ offset =>
      rw [diagnosticsAt_placed_later phase (by omega), Nat.add_comm offset 1, ← Nat.add_assoc]
      exact ih (phase.step first).1 (index + 1) htoken

end Phase

/-! ### Charges -/

/-- Whether the event may bring a diagnostic: a production does if it is one of a name, and not the first. -/
def Event.isCharged : Event → Bool
  | .problem _ => true
  | .production completed => completed.name.kind == .nonTerminal

/-- What a production of that name is charged for. -/
def Token.charge (name : Token) : Nat := if name.kind = .nonTerminal then 1 else 0

/-- The number of charged events. -/
def charges (events : List Event) : Nat := events.countP Event.isCharged

theorem charges_append (first second : List Event) : charges (first ++ second) = charges first + charges second :=
  List.countP_append

theorem charges_production (name : Token) (expression : Option Expression) :
    charges [.production ⟨name, expression⟩] = name.charge := by
  have hcharged : (Event.production ⟨name, expression⟩).isCharged = true ↔ name.kind = .nonTerminal := beq_iff_eq
  rw [charges, List.countP_singleton, Token.charge]
  simp only [hcharged]

theorem Kind.charges_mismatch (kind : Kind) (found : Token) :
    charges (kind.mismatch found) = if found.kind = kind then 0 else 1 := by
  rw [mismatch]
  split <;> rfl

theorem Kind.charges_mismatch_le (kind : Kind) (found : Token) : charges (kind.mismatch found) ≤ 1 := by
  rw [charges_mismatch]
  split <;> omega

theorem Fragment.charges_events (fragment : Fragment) (found : Token) :
    charges (fragment.events found) = if fragment.terms.isEmpty then 1 else 0 := by
  rw [events, sequenceProblems]
  split <;> rfl

theorem Fragment.charges_events_le (fragment : Fragment) (found : Token) : charges (fragment.events found) ≤ 1 := by
  rw [charges_events]
  split <;> omega

namespace Phase

variable (name token stop : Token) (frames : List Frame) (frame : Frame) (fragment : Fragment)

theorem charges_closeBracket_le :
    charges (closeBracket frame fragment token) ≤ charges (fragment.events token) + 1 := by
  have hmismatch := (Kind.closing frame.bracket).charges_mismatch_le token
  rw [closeBracket, charges_append]
  omega

theorem charges_closeProduction_le :
    charges (closeProduction name fragment token) ≤ charges (fragment.events token) + 1 + name.charge := by
  have hmismatch := Kind.terminator.charges_mismatch_le token
  rw [closeProduction, charges_append, charges_append, charges_production]
  omega

/-- What a phase has been charged for in advance: the end of input may find each open bracket without
the one that closes it, and the production may be one of a name that is defined already. Before the
equals sign, that may be missing as well. -/
def charge : Phase → Nat
  | .between => 0
  | .named name => 1 + name.charge
  | .defining name => name.charge
  | .within name frames _ => frames.length + name.charge

theorem charges_stepExpression_le :
    charges (stepExpression name frames fragment token).2 + (stepExpression name frames fragment token).1.charge ≤
      2 + (within name frames fragment).charge := by
  have hevents := fragment.charges_events_le token
  rcases token.kind.expression_cases with hkind | hkind | ⟨bracket, hkind⟩ | hkind | hends
  · rw [stepExpression_nonTerminal hkind]
    show 0 + (frames.length + name.charge) ≤ 2 + (frames.length + name.charge)
    omega
  · rw [stepExpression_terminal hkind]
    show 0 + (frames.length + name.charge) ≤ 2 + (frames.length + name.charge)
    omega
  · rw [stepExpression_opening hkind]
    show 0 + (frames.length + 1 + name.charge) ≤ 2 + (frames.length + name.charge)
    omega
  · rw [stepExpression_bar hkind]
    show charges (fragment.events token) + (frames.length + name.charge) ≤ 2 + (frames.length + name.charge)
    omega
  · cases frames with
    | nil =>
      have hclose := charges_closeProduction_le name token fragment
      rw [stepExpression_closeProduction hends]
      show charges (closeProduction name fragment token) + 0 ≤ 2 + (0 + name.charge)
      omega
    | cons frame frames =>
      have hclose := charges_closeBracket_le token frame fragment
      rw [stepExpression_closeBracket hends]
      show charges (closeBracket frame fragment token) + (frames.length + name.charge) ≤
        2 + (frames.length + 1 + name.charge)
      omega

/-- A token is charged for two diagnostics. What it does not cause itself is left for later. -/
theorem charges_step_le (phase : Phase) :
    charges (phase.step token).2 + (phase.step token).1.charge ≤ 2 + phase.charge := by
  cases phase with
  | between =>
    show charges (Kind.nonTerminal.mismatch token) + (1 + token.charge) ≤ 2 + 0
    rw [Kind.charges_mismatch, Token.charge]
    split <;> omega
  | named name =>
    have hmismatch := Kind.equals.charges_mismatch_le token
    show charges (Kind.equals.mismatch token) + name.charge ≤ 2 + (1 + name.charge)
    omega
  | defining name =>
    by_cases hkind : token.kind = .terminator
    · rw [step_defining_terminator hkind, charges_production, charge, charge]
      omega
    · rw [step_defining hkind]
      have hstep := charges_stepExpression_le name token [] .empty
      rw [charge, List.length_nil, Nat.zero_add] at hstep
      exact hstep
  | within name frames fragment => exact charges_stepExpression_le name token frames fragment

/-- By induction on the open brackets. Once the innermost one has a term, so have those around it. -/
theorem charges_finishExpression_le :
    charges (finishExpression name frames fragment stop) ≤
      charges (fragment.events stop) + frames.length + 1 + name.charge := by
  induction frames generalizing fragment with
  | nil => exact charges_closeProduction_le name stop fragment
  | cons frame frames ih =>
    have hclose := charges_closeBracket_le stop frame fragment
    have hrest := ih (frame.close (fragment.expression stop))
    have hterm : charges ((frame.close (fragment.expression stop)).events stop) = 0 := rfl
    rw [finishExpression, charges_append, List.length_cons]
    omega

theorem charges_finish_le (phase : Phase) : charges (phase.finish stop) ≤ 2 + phase.charge := by
  cases phase with
  | between => exact Nat.zero_le _
  | named name =>
    have hmismatch := Kind.equals.charges_mismatch_le stop
    have hexpression := charges_finishExpression_le name stop [] .empty
    have hevents := Fragment.empty.charges_events_le stop
    rw [finish, charges_append, charge]
    rw [List.length_nil] at hexpression
    omega
  | defining name =>
    have hexpression := charges_finishExpression_le name stop [] .empty
    have hevents := Fragment.empty.charges_events_le stop
    rw [finish, charge]
    rw [List.length_nil] at hexpression
    omega
  | within name frames fragment =>
    have hexpression := charges_finishExpression_le name stop frames fragment
    have hevents := fragment.charges_events_le stop
    rw [finish, charge]
    omega

/-- Two for each token and two for the end of input are enough. -/
theorem charges_outcome_le (phase : Phase) (tokens : List Token) :
    charges (phase.outcome tokens stop) ≤ 2 * tokens.length + 2 + phase.charge := by
  induction tokens generalizing phase with
  | nil =>
    rw [List.length_nil, Nat.mul_zero, Nat.zero_add]
    exact charges_finish_le stop phase
  | cons token rest ih =>
    have hstep := charges_step_le token phase
    have hrest := ih (phase.step token).1
    rw [outcome_cons, charges_append, List.length_cons]
    omega

end Phase

/-! ### The diagnostics of a reading -/

/-- The problems come with the number of tokens before the one at which each arises, in the order of these
tokens. A token before the end of input has at most two problems, a missing term first. At the end of
input at most one term is missing. -/
structure TokenStream.Places (stream : TokenStream) (placed : List (Nat × Diagnostic)) : Prop where
  pairwise_le : placed.Pairwise (·.1 ≤ ·.1)
  arisesAt : ∀ entry ∈ placed, ∃ token, (stream.body ++ [stream.stop])[entry.1]? = some token ∧ entry.2.ArisesAt token
  sublist : ∀ index token, stream.body[index]? = some token →
    ∃ kind : Kind, (diagnosticsAt index placed).Sublist [.emptySequenceBefore token, .unexpectedToken kind.label token]
  missing_le : (diagnosticsAt stream.body.length placed).countP Diagnostic.isMissingTerm ≤ 1

theorem TokenStream.places_placed {stream : TokenStream} (hstop : ¬stream.stop.kind.BeginsTerm) :
    stream.Places (Phase.between.placed 0 stream.body stream.stop) := by
  refine ⟨Phase.pairwise_placed _ 0 _, ?_, ?_, ?_⟩
  · intro entry hmem
    obtain ⟨offset, token, hindex, htoken, harises⟩ :=
      Phase.exists_arisesAt_of_mem_placed hstop .between 0 stream.body entry hmem
    rw [Nat.zero_add] at hindex
    exact ⟨token, hindex ▸ htoken, harises⟩
  · intro index token htoken
    obtain ⟨kind, hcauses⟩ := Phase.between.exists_causesAtMost_placed stream.stop 0 stream.body htoken
    rw [Nat.zero_add] at hcauses
    exact ⟨kind, hcauses⟩
  · have hlast := Phase.between.diagnosticsAt_placed_length stream.stop 0 stream.body
    rw [Nat.zero_add] at hlast
    rw [hlast, List.countP_eq_length_filter, filter_isMissingTerm_problemsOf]
    exact Phase.length_missingTermsOf_finish_le stream.stop _

namespace Reading

theorem filter_isAtToken_ofEvents {events : List Event}
    (hproblems : ∀ problem ∈ problemsOf events, problem.isAtToken = true)
    (grammar : Grammar) : (ofEvents grammar events).diagnostics.filter Diagnostic.isAtToken = problemsOf events := by
  fun_induction ofEvents grammar events with
  | case1 => rfl
  | case2 grammar problem rest ih =>
    obtain ⟨hproblem, hrest⟩ := List.forall_mem_cons.1 hproblems
    rw [diagnostics_report, List.filter_cons_of_pos hproblem, ih hrest]
    rfl
  | case3 grammar production rest _ previous _ ih => exact ih hproblems
  | case4 grammar production rest _ _ ih => exact ih hproblems
  | case5 grammar production rest _ ih => exact ih hproblems

theorem length_diagnostics_ofEvents_le (grammar : Grammar) (events : List Event) :
    (ofEvents grammar events).diagnostics.length ≤ charges events := by
  fun_induction ofEvents grammar events with
  | case1 => exact Nat.le_refl 0
  | case2 grammar problem rest ih =>
    have hcharged : charges (.problem problem :: rest) = charges rest + 1 := List.countP_cons_of_pos rfl
    rw [diagnostics_report, List.length_cons, hcharged]
    exact Nat.succ_le_succ ih
  | case3 grammar production rest hkind previous _ ih =>
    have hcharged : charges (.production production :: rest) = charges rest + 1 :=
      List.countP_cons_of_pos (beq_iff_eq.2 hkind)
    rw [diagnostics_report, List.length_cons, hcharged]
    exact Nat.succ_le_succ ih
  | case4 grammar production rest _ _ ih => exact Nat.le_trans ih (List.sublist_cons_self _ rest).countP_le
  | case5 grammar production rest _ ih => exact Nat.le_trans ih (List.sublist_cons_self _ rest).countP_le

/-- What is reported besides the trailing tokens is what the events bring. -/
theorem countP_not_isTrailing_le (tokens : List Token) :
    (ofTokens tokens).diagnostics.countP (!·.isTrailing) ≤
      (ofEvents .empty (TokenStream.ofTokens tokens).events).diagnostics.length := by
  have htrailing : (trailingProblems (TokenStream.ofTokens tokens).trailing).countP (!·.isTrailing) = 0 := by
    cases (TokenStream.ofTokens tokens).trailing <;> rfl
  rw [diagnostics_ofTokens, List.countP_append, htrailing]
  exact List.countP_le_length

/-- The problems with single tokens come in the order of the tokens, at most two for each token before the
end of input. With the repeated names, there are at most two diagnostics for each of these tokens and two
more, and none if there is no such token. -/
theorem places_diagnostics_ofTokens (tokens : List Token) :
    let stream := TokenStream.ofTokens tokens
    (∃ placed, stream.Places placed ∧
        placed.map Prod.snd = (ofTokens tokens).diagnostics.filter Diagnostic.isAtToken) ∧
      (ofTokens tokens).diagnostics.countP (!·.isTrailing) ≤ 2 * stream.body.length + 2 ∧
      (stream.body = [] → (ofTokens tokens).diagnostics.countP (!·.isTrailing) = 0) := by
  intro stream
  have hstop := TokenStream.not_beginsTerm_stop tokens
  have hcount : (ofTokens tokens).diagnostics.countP (!·.isTrailing) ≤
      (ofEvents .empty stream.events).diagnostics.length :=
    countP_not_isTrailing_le tokens
  refine ⟨⟨_, TokenStream.places_placed hstop, ?_⟩, ?_, ?_⟩
  · have hproblems : ∀ problem ∈ problemsOf stream.events, problem.isAtToken = true := by
      intro problem hmem
      obtain ⟨_, _, harises⟩ := TokenStream.arisesIn_of_mem_events hstop _ (mem_problemsOf_iff.1 hmem)
      exact harises.isAtToken
    have htrailing : (trailingProblems stream.trailing).filter Diagnostic.isAtToken = [] := by
      cases stream.trailing <;> rfl
    rw [Phase.map_snd_placed, diagnostics_ofTokens, List.filter_append, filter_isAtToken_ofEvents hproblems, htrailing,
      List.append_nil]
    rfl
  · have hcharges : charges stream.events ≤ 2 * stream.body.length + 2 + 0 :=
      Phase.charges_outcome_le stream.stop .between stream.body
    have hlength := length_diagnostics_ofEvents_le .empty stream.events
    omega
  · intro hbody
    have hevents : stream.events = [] := by
      rw [TokenStream.events, hbody]
      rfl
    rw [hevents] at hcount
    exact Nat.le_zero.1 hcount

/-- An equals sign is no name, and the end of input after it is no equals sign, no term and no full stop. -/
theorem places_diagnostics_loneEquals :
    let lone : List Token := [⟨.equals, [], ⟨1, 1⟩, 0⟩]
    (ofTokens lone).diagnostics = [.unexpected ⟨1, 1⟩ "NON_TERMINAL" "EQ", .unexpected ⟨1, 2⟩ "EQ" "EOF",
        .emptySequence ⟨1, 2⟩ "EOF", .unexpected ⟨1, 2⟩ "TERMINATOR" "EOF"] ∧
      (∃ placed, (TokenStream.ofTokens lone).Places placed ∧
        placed.map Prod.snd = (ofTokens lone).diagnostics.filter Diagnostic.isAtToken) ∧
      (ofTokens []).diagnostics.countP (!·.isTrailing) = 0 := by
  intro lone
  obtain ⟨hplaces, _, _⟩ := places_diagnostics_ofTokens lone
  obtain ⟨_, _, hnone⟩ := places_diagnostics_ofTokens []
  exact ⟨by decide, hplaces, hnone rfl⟩

end Reading

end GrammarCheck
