import GrammarCheck.Proofs.Reading.Descent

/-!
# Progress of the descent

The descent and the reader that takes one token at a time go through the tokens in step: wherever the
cursor is, the problems that the descent has reported and what the reader has still to bring about make
up the same. So every function of the descent returns, with what the reader makes of the same tokens.
It moves the cursor on where it returns something, which is why loops and recursions end, and it never
moves it past the end of input.
-/

namespace GrammarCheck

/-! ### What the reader does at the next token -/

namespace Phase

variable {stream : TokenStream} {name token : Token} {frames : List Frame} {frame : Frame} {fragment : Fragment}
  {rest : List Token}

theorem outcome_nonTerminal (hkind : token.kind = .nonTerminal) :
    (within name frames fragment).outcome (token :: rest) stream.stop =
      (within name frames (fragment.push (.name token))).outcome rest stream.stop := by
  rw [outcome_cons, step, stepExpression_nonTerminal hkind, List.nil_append]

theorem outcome_terminal (hkind : token.kind = .terminal) :
    (within name frames fragment).outcome (token :: rest) stream.stop =
      (within name frames (fragment.push (.literal token))).outcome rest stream.stop := by
  rw [outcome_cons, step, stepExpression_terminal hkind, List.nil_append]

theorem outcome_opening {bracket : Bracket} (hkind : token.kind = .opening bracket) :
    (within name frames fragment).outcome (token :: rest) stream.stop =
      (within name (⟨bracket, token, fragment⟩ :: frames) .empty).outcome rest stream.stop := by
  rw [outcome_cons, step, stepExpression_opening hkind, List.nil_append]

theorem outcome_bar (hkind : token.kind = .bar) :
    (within name frames fragment).outcome (token :: rest) stream.stop =
      fragment.events token ++ (within name frames (fragment.nextBranch token)).outcome rest stream.stop := by
  rw [outcome_cons, step, stepExpression_bar hkind]

/-- The end of input ends an expression in a bracket as any other token does, but is not taken. -/
theorem outcome_closeBracket (hends : (stream.current rest).kind.endsExpression = true) :
    (within name (frame :: frames) fragment).outcome rest stream.stop =
      closeBracket frame fragment (stream.current rest) ++
        (within name frames (frame.close (fragment.expression (stream.current rest)))).outcome rest.tail stream.stop := by
  cases rest with
  | nil => rfl
  | cons token later =>
    replace hends : token.kind.endsExpression = true := hends
    rw [outcome_cons, step, stepExpression_closeBracket hends]
    rfl

theorem outcome_closeProduction (hends : (stream.current rest).kind.endsExpression = true) :
    (within name [] fragment).outcome rest stream.stop =
      closeProduction name fragment (stream.current rest) ++ between.outcome rest.tail stream.stop := by
  cases rest with
  | nil => exact (List.append_nil _).symm
  | cons token later =>
    replace hends : token.kind.endsExpression = true := hends
    rw [outcome_cons, step, stepExpression_closeProduction hends]
    rfl

theorem outcome_named :
    (named name).outcome rest stream.stop =
      Kind.equals.mismatch (stream.current rest) ++ (defining name).outcome rest.tail stream.stop := by
  cases rest with
  | nil => rfl
  | cons token later => exact outcome_cons _ _ _ _

theorem outcome_defining (hkind : (stream.current rest).kind ≠ .terminator) :
    (defining name).outcome rest stream.stop = (within name [] .empty).outcome rest stream.stop := by
  cases rest with
  | nil => rfl
  | cons token later =>
    replace hkind : token.kind ≠ .terminator := hkind
    rw [outcome_cons, outcome_cons, step_defining hkind]
    rfl

theorem outcome_defining_terminator (hstop : stream.stop.kind = .endOfInput)
    (hkind : (stream.current rest).kind = .terminator) :
    (defining name).outcome rest stream.stop =
      .production ⟨name, none⟩ :: between.outcome rest.tail stream.stop := by
  cases rest with
  | nil =>
    rw [TokenStream.current_nil, hstop] at hkind
    contradiction
  | cons token later =>
    rw [TokenStream.current_cons] at hkind
    rw [outcome_cons, step_defining_terminator hkind]
    rfl

end Phase

/-! ### In step with the reader -/

/-- The descent is as far as the reader in the phase with the rest of the tokens: what it has reported
after the earlier diagnostics, and what the reader brings about from there, are all the events. The
problems ahead are those that the descent has reported and the reader has not. -/
structure Cursor.InStep (stream : TokenStream) (earlier : List Diagnostic) (all : List Event) (ahead : List Diagnostic)
    (phase : Phase) (rest : List Token) (cursor : Cursor) : Prop where
  stands : cursor.Stands stream rest
  accounted : ∃ reported, cursor.diagnostics = earlier ++ reported ++ ahead ∧
    all = reported.map .problem ++ phase.outcome rest stream.stop

namespace Cursor

variable {stream : TokenStream} {earlier ahead : List Diagnostic} {all : List Event} {phase phase' : Phase}
  {rest rest' : List Token} {cursor cursor' : Cursor} {name token : Token} {frames : List Frame} {frame : Frame}
  {fragment : Fragment}

theorem Stands.inStep (hstands : cursor.Stands stream rest) (phase : Phase) :
    cursor.InStep stream cursor.diagnostics (phase.outcome rest stream.stop) [] phase rest :=
  ⟨hstands, [], by simp, rfl⟩

/-- Once the reader has caught up, all that there was to report has been. -/
theorem InStep.exists_reported (hinStep : cursor.InStep stream earlier all ahead phase rest) {found : List Diagnostic}
    {later : List Event} (hdiagnostics : cursor'.diagnostics = cursor.diagnostics ++ found)
    (houtcome : phase.outcome rest stream.stop = (ahead ++ found).map .problem ++ later) :
    ∃ reported, cursor'.diagnostics = earlier ++ reported ∧ all = reported.map .problem ++ later := by
  obtain ⟨reported, hreported, hall⟩ := hinStep.accounted
  refine ⟨reported ++ ahead ++ found, ?_, ?_⟩
  · rw [hdiagnostics, hreported]
    simp only [List.append_assoc]
  · rw [hall, houtcome]
    simp only [List.map_append, List.append_assoc]

/-- Both go on, and neither is ahead afterwards. -/
theorem InStep.go_on (hinStep : cursor.InStep stream earlier all ahead phase rest) {found : List Diagnostic}
    (hstands : cursor'.Stands stream rest') (hdiagnostics : cursor'.diagnostics = cursor.diagnostics ++ found)
    (houtcome : phase.outcome rest stream.stop =
      (ahead ++ found).map .problem ++ phase'.outcome rest' stream.stop) :
    cursor'.InStep stream earlier all [] phase' rest' := by
  obtain ⟨reported, hreported, hall⟩ := hinStep.exists_reported hdiagnostics houtcome
  exact ⟨hstands, reported, hreported.trans (List.append_nil _).symm, hall⟩

/-- The token is passed over, and the reader makes no more of it than has been reported. -/
theorem InStep.advance (hinStep : cursor.InStep stream earlier all ahead phase (token :: rest))
    (houtcome : phase.outcome (token :: rest) stream.stop =
      ahead.map .problem ++ phase'.outcome rest stream.stop) :
    (stream.descent.advance cursor).InStep stream earlier all [] phase' rest := by
  have hdiagnostics : (stream.descent.advance cursor).diagnostics = cursor.diagnostics ++ [] := (List.append_nil _).symm
  exact hinStep.go_on hinStep.stands.advance hdiagnostics (by rw [houtcome, List.append_nil])

/-- A sequence without terms is reported before the reader comes to the token that ends it. -/
theorem InStep.report_empty (hinStep : cursor.InStep stream earlier all [] (.within name frames fragment) rest)
    (hterms : fragment.terms = []) :
    (cursor.report (.emptySequenceBefore (stream.current rest))).InStep stream earlier all
      (fragment.sequenceProblems (stream.current rest)) (.within name frames fragment) rest := by
  obtain ⟨reported, hreported, hall⟩ := hinStep.accounted
  refine ⟨hinStep.stands.report _, reported, ?_, hall⟩
  rw [Cursor.report, hreported, List.append_nil, Fragment.sequenceProblems, hterms]
  rfl

end Cursor

/-! ### What each function returns

From an expression to one in a bracket within it there are five calls, and at least one token has been
taken. So with five levels for each token that is left every function has as many as it needs, and one or
more for the calls that it makes before a token is taken. -/

section Reads

variable (stream : TokenStream) (earlier : List Diagnostic) (all : List Event) (rest : List Token)

/-- A term is read where one begins, and the cursor moves on. -/
def TermReads : Prop :=
  ∀ cursor name frames fragment,
    cursor.InStep stream earlier all [] (.within name frames fragment) rest →
    (stream.current rest).kind.BeginsTerm →
    ∃ term rest' cursor',
      (∀ depth, 5 * rest.length + 1 ≤ depth → stream.descent.term? depth cursor = some (some term, cursor')) ∧
      rest'.length < rest.length ∧
      cursor'.InStep stream earlier all [] (.within name frames (fragment.push term)) rest'

/-- The loop over terms goes on up to a token that begins none. -/
def TermsRead : Prop :=
  ∀ cursor name frames branches terms,
    cursor.InStep stream earlier all [] (.within name frames ⟨branches, terms⟩) rest →
    ∃ terms' rest' cursor',
      (∀ depth, 5 * rest.length + 2 ≤ depth →
        stream.descent.terms? depth terms.reverse cursor = some (terms'.reverse, cursor')) ∧
      rest'.length ≤ rest.length ∧ ¬(stream.current rest').kind.BeginsTerm ∧
      cursor'.InStep stream earlier all [] (.within name frames ⟨branches, terms'⟩) rest'

/-- A sequence is what the reader makes of its terms at the token that ends it. -/
def SequenceReads : Prop :=
  ∀ cursor name frames branches,
    cursor.InStep stream earlier all [] (.within name frames ⟨branches, []⟩) rest →
    ∃ fragment rest' cursor',
      (∀ depth, 5 * rest.length + 3 ≤ depth →
        stream.descent.sequence? depth cursor = some (fragment.sequence (stream.current rest'), cursor')) ∧
      fragment.branches = branches ∧ rest'.length ≤ rest.length ∧ ¬(stream.current rest').kind.BeginsTerm ∧
      cursor'.InStep stream earlier all (fragment.sequenceProblems (stream.current rest'))
        (.within name frames fragment) rest'

/-- The branches are those that are complete and the one that ends where the cursor is. -/
def Fragment.allBranches (fragment : Fragment) (found : Token) : List Expression :=
  (fragment.sequence found :: fragment.branches).reverse

/-- The loop over branches goes on up to a token that ends the expression. -/
def BranchesRead : Prop :=
  ∀ cursor name frames fragment, ¬(stream.current rest).kind.BeginsTerm →
    cursor.InStep stream earlier all (fragment.sequenceProblems (stream.current rest))
      (.within name frames fragment) rest →
    ∃ fragment' rest' cursor',
      (∀ depth, 5 * rest.length + 3 ≤ depth →
        stream.descent.branches? depth (fragment.allBranches (stream.current rest)) cursor =
          some (fragment'.allBranches (stream.current rest'), cursor')) ∧
      rest'.length ≤ rest.length ∧ (stream.current rest').kind.endsExpression = true ∧
      cursor'.InStep stream earlier all (fragment'.sequenceProblems (stream.current rest'))
        (.within name frames fragment') rest'

/-- An expression is what the reader makes of it at the token that ends it. -/
def ExpressionReads : Prop :=
  ∀ cursor name frames, cursor.InStep stream earlier all [] (.within name frames .empty) rest →
    ∃ fragment rest' cursor',
      (∀ depth, 5 * rest.length + 4 ≤ depth →
        stream.descent.expression? depth cursor = some (fragment.expression (stream.current rest'), cursor')) ∧
      rest'.length ≤ rest.length ∧ (stream.current rest').kind.endsExpression = true ∧
      cursor'.InStep stream earlier all (fragment.sequenceProblems (stream.current rest'))
        (.within name frames fragment) rest'

end Reads

section Returns

variable {stream : TokenStream} {earlier : List Diagnostic} {all : List Event} {rest : List Token} {cursor : Cursor}

theorem Expression.collapse_of_two_le {wrap : List Expression → Expression} {parts : List Expression}
    (hlength : 2 ≤ parts.length) : collapse wrap parts = wrap parts := by
  match parts with
  | [] | [_] => simp at hlength
  | first :: second :: rest => rfl

theorem Fragment.collapse_terms (fragment : Fragment) (found : Token) (hterms : fragment.terms ≠ []) :
    Expression.collapse .sequence fragment.terms.reverse = fragment.sequence found := by
  obtain ⟨branches, terms⟩ := fragment
  match terms with
  | [] => contradiction
  | [term] => rfl
  | first :: second :: rest => exact Expression.collapse_of_two_le (by simp)

theorem Fragment.collapse_allBranches (fragment : Fragment) (found : Token) :
    Expression.collapse .alternative (fragment.allBranches found) = fragment.expression found := by
  obtain ⟨branches, terms⟩ := fragment
  cases branches with
  | nil => rfl
  | cons branch rest => exact Expression.collapse_of_two_le (by simp [allBranches])

theorem Kind.endsExpression_of_not_beginsTerm {kind : Kind} (hbegins : ¬kind.BeginsTerm) (hbar : kind ≠ .bar) :
    kind.endsExpression = true := by
  rcases kind.expression_cases with hkind | hkind | hkind | hkind | hends
  · exact absurd (.inl hkind) hbegins
  · exact absurd (.inr (.inl hkind)) hbegins
  · exact absurd (.inr (.inr hkind)) hbegins
  · exact absurd hkind hbar
  · exact hends

/-- A call that makes others one level deeper returns if they do. -/
theorem forall_depth {holds : Nat → Prop} {bound : Nat} (hdeeper : ∀ depth, bound ≤ depth → holds (depth + 1)) :
    ∀ depth, bound + 1 ≤ depth → holds depth := by
  intro depth hdepth
  cases depth with
  | zero => exact absurd hdepth (Nat.not_succ_le_zero bound)
  | succ depth => exact hdeeper depth (Nat.le_of_succ_le_succ hdepth)

/-! ### Terms -/

/-- A bracket is followed by an expression with fewer tokens left. -/
theorem termReads (hstop : stream.stop.kind = .endOfInput)
    (hexpression : ∀ later : List Token, later.length < rest.length → ExpressionReads stream earlier all later) :
    TermReads stream earlier all rest := by
  intro cursor name frames fragment hinStep hbegins
  have hcurrent := hinStep.stands.current?_eq
  have hnext := hinStep.stands.next?_eq
  cases rest with
  | nil =>
    rw [TokenStream.current_nil, hstop] at hbegins
    exact absurd hbegins (Kind.not_beginsTerm_of_endsExpression rfl)
  | cons token later =>
    rw [TokenStream.current_cons] at hbegins hcurrent hnext
    rcases hbegins with hkind | hkind | ⟨bracket, hkind⟩
    · refine ⟨.name token, later, _, ?_, Nat.lt_succ_self _, hinStep.advance (Phase.outcome_nonTerminal hkind)⟩
      refine forall_depth fun depth _ => ?_
      rw [Descent.term?]
      simp [hcurrent, hkind, hnext]
    · refine ⟨.literal token, later, _, ?_, Nat.lt_succ_self _, hinStep.advance (Phase.outcome_terminal hkind)⟩
      refine forall_depth fun depth _ => ?_
      rw [Descent.term?]
      simp [hcurrent, hkind, hnext]
    · have hopened : (stream.descent.advance cursor).InStep stream earlier all []
          (.within name (⟨bracket, token, fragment⟩ :: frames) .empty) later :=
        hinStep.advance (Phase.outcome_opening hkind)
      obtain ⟨inner, rest', cursor', hbody, hlength, hends, hinner⟩ :=
        hexpression later (Nat.lt_succ_self _) _ _ _ hopened
      obtain ⟨cursor'', hclosing, hstands, hdiagnostics⟩ := hinner.stands.exists_expect?_eq (.closing bracket)
      have hclosed : cursor''.InStep stream earlier all []
          (.within name frames (fragment.push (.enclosed bracket token (inner.expression (stream.current rest')))))
          rest'.tail := by
        refine hinner.go_on hstands hdiagnostics ?_
        rw [Phase.outcome_closeBracket hends, Phase.closeBracket, Fragment.events, Kind.mismatch_eq, List.map_append]
        rfl
      have henclosed : ∀ depth, 5 * later.length + 5 ≤ depth → stream.descent.enclosed? depth bracket cursor =
          some (token, inner.expression (stream.current rest'), cursor'') := by
        refine forall_depth fun depth hdepth => ?_
        rw [Descent.enclosed?]
        simp [hnext, hbody depth hdepth, hclosing]
      refine ⟨_, _, cursor'', ?_, ?_, hclosed⟩
      · refine forall_depth fun depth hdepth => ?_
        rw [Descent.term?]
        simp [hcurrent, hkind, henclosed depth hdepth]
      · rw [List.length_tail, List.length_cons]
        omega

theorem term?_eq_none (hstands : cursor.Stands stream rest) (hkind : ¬(stream.current rest).kind.BeginsTerm) :
    ∀ depth, 1 ≤ depth → stream.descent.term? depth cursor = some (none, cursor) := by
  refine forall_depth fun depth _ => ?_
  rw [Descent.term?, hstands.current?_eq, Option.bind_eq_bind, Option.bind_some]
  split
  · next heq => exact absurd (.inl heq) hkind
  · next heq => exact absurd (.inr (.inl heq)) hkind
  · next bracket heq => exact absurd (.inr (.inr ⟨bracket, heq⟩)) hkind
  · rfl

/-- By induction on the tokens that are left, as each term takes some of them. -/
theorem termsRead (hterm : ∀ later : List Token, later.length ≤ rest.length → TermReads stream earlier all later) :
    TermsRead stream earlier all rest := by
  induction hlength : rest.length using Nat.strongRecOn generalizing rest with
  | _ length ih =>
    intro cursor name frames branches terms hinStep
    by_cases hbegins : (stream.current rest).kind.BeginsTerm
    · obtain ⟨term, later, cursor', hreturned, hless, hinStep'⟩ := hterm rest (Nat.le_refl _) _ _ _ _ hinStep hbegins
      obtain ⟨terms', rest', cursor'', hloop, hle, hends, hinStep''⟩ := ih later.length (hlength ▸ hless)
        (fun other hother => hterm other (Nat.le_trans hother (Nat.le_of_lt hless))) rfl _ _ _ _ _ hinStep'
      refine ⟨terms', rest', cursor'', ?_, by omega, hends, hinStep''⟩
      rw [List.reverse_cons] at hloop
      refine forall_depth fun depth hdepth => ?_
      rw [Descent.terms?]
      simp [hreturned depth (by omega), hloop depth (by omega)]
    · refine ⟨terms, rest, cursor, ?_, Nat.le_refl _, hbegins, hinStep⟩
      refine forall_depth fun depth hdepth => ?_
      rw [Descent.terms?, term?_eq_none hinStep.stands hbegins depth (by omega)]
      rfl

/-! ### Sequences and expressions -/

theorem sequenceReads (hterms : TermsRead stream earlier all rest) : SequenceReads stream earlier all rest := by
  intro cursor name frames branches hinStep
  obtain ⟨terms, rest', cursor', hloop, hle, hbegins, hinStep'⟩ := hterms _ _ _ _ _ hinStep
  rw [List.reverse_nil] at hloop
  by_cases hnone : terms = []
  · subst hnone
    refine ⟨⟨branches, []⟩, rest', _, ?_, rfl, hle, hbegins, hinStep'.report_empty rfl⟩
    refine forall_depth fun depth hdepth => ?_
    rw [Descent.sequence?]
    simp [hloop depth hdepth, hinStep'.stands.current?_eq, Fragment.sequence]
  · have hproblems : Fragment.sequenceProblems ⟨branches, terms⟩ (stream.current rest') = [] := by
      simp [Fragment.sequenceProblems, hnone]
    refine ⟨⟨branches, terms⟩, rest', cursor', ?_, rfl, hle, hbegins, hproblems ▸ hinStep'⟩
    refine forall_depth fun depth hdepth => ?_
    rw [Descent.sequence?, ← Fragment.collapse_terms ⟨branches, terms⟩ _ hnone]
    simp [hloop depth hdepth, hnone]

/-- By induction on the tokens that are left, as each branch begins with a bar. -/
theorem branchesRead (hstop : stream.stop.kind = .endOfInput)
    (hsequence : ∀ later : List Token, later.length < rest.length → SequenceReads stream earlier all later) :
    BranchesRead stream earlier all rest := by
  induction hlength : rest.length using Nat.strongRecOn generalizing rest with
  | _ length ih =>
    intro cursor name frames fragment hbegins hinStep
    have hcurrent := hinStep.stands.current?_eq
    have hnext := hinStep.stands.next?_eq
    by_cases hbar : (stream.current rest).kind = .bar
    · cases rest with
      | nil =>
        rw [TokenStream.current_nil, hstop] at hbar
        contradiction
      | cons token later =>
        rw [TokenStream.current_cons] at hbar hcurrent hnext
        rw [List.length_cons] at hlength
        have hseparated : (stream.descent.advance cursor).InStep stream earlier all []
            (.within name frames (fragment.nextBranch token)) later :=
          hinStep.advance (Phase.outcome_bar hbar)
        obtain ⟨branch, rest', cursor', hreturned, hbranches, hle, hbegins', hinStep'⟩ :=
          hsequence later (Nat.lt_succ_self _) _ _ _ _ hseparated
        have hlater : ∀ other : List Token, other.length < rest'.length → SequenceReads stream earlier all other :=
          fun other hother => hsequence other (by rw [List.length_cons]; omega)
        obtain ⟨fragment', rest'', cursor'', hloop, hle', hends, hinStep''⟩ :=
          ih rest'.length (by omega) hlater rfl _ _ _ _ hbegins' hinStep'
        refine ⟨fragment', rest'', cursor'', ?_, by rw [List.length_cons]; omega, hends, hinStep''⟩
        rw [Fragment.allBranches, hbranches, List.reverse_cons] at hloop
        rw [List.length_cons]
        refine forall_depth fun depth hdepth => ?_
        rw [Descent.branches?]
        simp only [hcurrent, hbar, hnext, hreturned depth (by omega), Option.bind_eq_bind, Option.bind_some, if_true]
        exact hloop depth (by omega)
    · refine ⟨fragment, rest, cursor, ?_, Nat.le_refl _, Kind.endsExpression_of_not_beginsTerm hbegins hbar, hinStep⟩
      refine forall_depth fun depth _ => ?_
      rw [Descent.branches?]
      simp only [hcurrent, hbar, Option.bind_eq_bind, Option.bind_some, if_false]
      rfl

/-- By induction on the tokens that are left, for the expressions in brackets. -/
theorem expressionReads (hstop : stream.stop.kind = .endOfInput) : ExpressionReads stream earlier all rest := by
  induction hlength : rest.length using Nat.strongRecOn generalizing rest with
  | _ length ih =>
    have hterm : ∀ later : List Token, later.length ≤ rest.length → TermReads stream earlier all later :=
      fun later hle => termReads hstop fun other hless => ih other.length (by omega) rfl
    have hsequence : ∀ later : List Token, later.length ≤ rest.length → SequenceReads stream earlier all later :=
      fun later hle => sequenceReads (termsRead fun other hle' => hterm other (Nat.le_trans hle' hle))
    intro cursor name frames hinStep
    obtain ⟨first, rest', cursor', hreturned, hbranches, hle, hbegins, hinStep'⟩ :=
      hsequence rest (Nat.le_refl _) _ _ _ _ hinStep
    obtain ⟨fragment, rest'', cursor'', hloop, hle', hends, hinStep''⟩ :=
      branchesRead hstop (fun later hless => hsequence later (by omega)) _ _ _ _ hbegins hinStep'
    refine ⟨fragment, rest'', cursor'', ?_, by omega, hends, hinStep''⟩
    rw [Fragment.allBranches, hbranches, List.reverse_singleton] at hloop
    refine forall_depth fun depth hdepth => ?_
    rw [Descent.expression?, hreturned depth (by omega), Option.bind_eq_bind, Option.bind_some]
    simp only [hloop depth (by omega), Option.bind_eq_bind, Option.bind_some, Fragment.collapse_allBranches]
    rfl

/-! ### Productions -/

/-- The descent returns the production that the reader completes, and has reported the same problems. -/
theorem exists_production?_eq {token : Token} (hstop : stream.stop.kind = .endOfInput)
    (hstands : cursor.Stands stream (token :: rest)) :
    ∃ production rest' cursor',
      (∀ depth, 5 * rest.length + 4 ≤ depth → stream.descent.production? depth cursor = some (production, cursor')) ∧
      cursor'.Stands stream rest' ∧ rest'.length ≤ rest.length ∧
      ∃ reported, cursor'.diagnostics = cursor.diagnostics ++ reported ∧
        Phase.between.outcome (token :: rest) stream.stop =
          reported.map .problem ++ .production production :: Phase.between.outcome rest' stream.stop := by
  obtain ⟨cursor₁, hname, hstands₁, hproblems₁⟩ := hstands.exists_expect?_eq .nonTerminal
  rw [TokenStream.current_cons] at hname
  rw [List.tail_cons] at hstands₁
  obtain ⟨cursor₂, hequals, hstands₂, hproblems₂⟩ := hstands₁.exists_expect?_eq .equals
  have hnamed : cursor₁.InStep stream cursor.diagnostics (Phase.between.outcome (token :: rest) stream.stop) []
      (.named token) rest := by
    refine (hstands.inStep .between).go_on hstands₁ hproblems₁ ?_
    rw [Phase.outcome_cons, Phase.step, Kind.mismatch_eq]
    rfl
  have hdefining : cursor₂.InStep stream cursor.diagnostics (Phase.between.outcome (token :: rest) stream.stop) []
      (.defining token) rest.tail := by
    refine hnamed.go_on hstands₂ hproblems₂ ?_
    rw [Phase.outcome_named, Kind.mismatch_eq]
    rfl
  by_cases hterminator : (stream.current rest.tail).kind = .terminator
  · obtain ⟨cursor₃, hend, hstands₃, hproblems₃⟩ := hstands₂.exists_expect?_eq .terminator
    have hnone : Kind.terminator.mismatchProblems (stream.current rest.tail) = [] := if_pos hterminator
    rw [hnone] at hproblems₃
    have hreported := hdefining.exists_reported hproblems₃ (Phase.outcome_defining_terminator hstop hterminator)
    refine ⟨⟨token, none⟩, _, cursor₃, ?_, hstands₃, by simp only [List.length_tail]; omega, hreported⟩
    intro depth hdepth
    rw [Descent.production?]
    simp [hname, hequals, hstands₂.current?_eq, hterminator, hend]
  · have hwithin : cursor₂.InStep stream cursor.diagnostics (Phase.between.outcome (token :: rest) stream.stop) []
        (.within token [] .empty) rest.tail :=
      hdefining.go_on hstands₂ (List.append_nil _).symm (Phase.outcome_defining hterminator)
    obtain ⟨fragment, rest', cursor₃, hexpression, hle, hends, hread⟩ := expressionReads hstop _ _ _ hwithin
    obtain ⟨cursor₄, hend, hstands₄, hproblems₄⟩ := hread.stands.exists_expect?_eq .terminator
    have houtcome : (Phase.within token [] fragment).outcome rest' stream.stop =
        (fragment.sequenceProblems (stream.current rest') ++
          Kind.terminator.mismatchProblems (stream.current rest')).map .problem ++
        .production ⟨token, some (fragment.expression (stream.current rest'))⟩ ::
          Phase.between.outcome rest'.tail stream.stop := by
      rw [Phase.outcome_closeProduction hends, Phase.closeProduction, Fragment.events, Kind.mismatch_eq, List.map_append]
      simp only [List.append_assoc, List.singleton_append]
    rw [List.length_tail] at hle
    refine ⟨⟨token, some _⟩, _, cursor₄, ?_, hstands₄, by rw [List.length_tail]; omega,
      hread.exists_reported hproblems₄ houtcome⟩
    intro depth hdepth
    have hbody := hexpression depth (by rw [List.length_tail]; omega)
    rw [Descent.production?]
    simp [hname, hequals, hstands₂.current?_eq, hterminator, hbody, hend]

theorem Reading.ofEvents_problems_append (grammar : Grammar) (problems : List Diagnostic) (events : List Event) :
    (ofEvents grammar (problems.map .problem ++ events)).grammar = (ofEvents grammar events).grammar ∧
      (ofEvents grammar (problems.map .problem ++ events)).diagnostics =
        problems ++ (ofEvents grammar events).diagnostics := by
  induction problems with
  | nil => exact ⟨rfl, rfl⟩
  | cons problem rest ih => exact ⟨ih.1, congrArg (List.cons problem) ih.2⟩

/-- What becomes of a production in the descent is what becomes of the event that completes it. -/
theorem Cursor.Stands.keep (hstands : cursor.Stands stream rest) (production : Production) (grammar : Grammar)
    (later : List Event) :
    (cursor.keep production grammar).2.Stands stream rest ∧
      (Reading.ofEvents grammar (.production production :: later)).grammar =
        (Reading.ofEvents (cursor.keep production grammar).1 later).grammar ∧
      cursor.diagnostics ++ (Reading.ofEvents grammar (.production production :: later)).diagnostics =
        (cursor.keep production grammar).2.diagnostics ++
          (Reading.ofEvents (cursor.keep production grammar).1 later).diagnostics := by
  rw [Cursor.keep]
  by_cases hkind : production.name.kind = .nonTerminal
  · rw [if_pos hkind]
    cases hfind : grammar.find? production.name.spelling with
    | some previous =>
      rw [Reading.ofEvents_repeated hkind hfind]
      exact ⟨hstands.report _, rfl, List.append_cons _ _ _⟩
    | none =>
      rw [Reading.ofEvents_new hkind hfind]
      exact ⟨hstands, rfl, rfl⟩
  · rw [if_neg hkind, Reading.ofEvents_unnamed hkind]
    exact ⟨hstands, rfl, rfl⟩

/-- By induction on the tokens that are left, as each production takes some of them. -/
theorem exists_productions?_eq (hdivided : stream.IsDivided) (grammar : Grammar)
    (hstands : cursor.Stands stream rest) :
    ∃ cursor',
      (∀ depth, 5 * rest.length + 1 ≤ depth → stream.descent.productions? depth grammar cursor =
        some ((Reading.ofEvents grammar (Phase.between.outcome rest stream.stop)).grammar, cursor')) ∧
      cursor'.Stands stream [] ∧
      cursor'.diagnostics =
        cursor.diagnostics ++ (Reading.ofEvents grammar (Phase.between.outcome rest stream.stop)).diagnostics := by
  induction hlength : rest.length using Nat.strongRecOn generalizing rest cursor grammar with
  | _ length ih =>
    have hcurrent := hstands.current?_eq
    cases rest with
    | nil =>
      have hends : stream.stop.isEndOfInput = true := by rw [Token.isEndOfInput, hdivided.stop_kind, beq_self_eq_true]
      refine ⟨cursor, ?_, hstands, (List.append_nil _).symm⟩
      refine forall_depth fun depth _ => ?_
      rw [Descent.productions?, hcurrent, TokenStream.current_nil, Option.bind_eq_bind, Option.bind_some, if_pos hends]
      rfl
    | cons token later =>
      have hopen : token.isEndOfInput = false := by
        apply hdivided.body_open
        have hmem : token ∈ stream.body.drop cursor.position := by simp [hstands.drop_eq]
        exact List.drop_subset _ _ hmem
      obtain ⟨production, rest', cursor', hreturned, hstands', hle, reported, hdiagnostics, houtcome⟩ :=
        exists_production?_eq hdivided.stop_kind hstands
      obtain ⟨hgrammar, hproblems⟩ := Reading.ofEvents_problems_append grammar reported
        (.production production :: Phase.between.outcome rest' stream.stop)
      obtain ⟨hkept, hsame, hreports⟩ :=
        hstands'.keep production grammar (Phase.between.outcome rest' stream.stop)
      rw [List.length_cons] at hlength
      obtain ⟨last, hloop, hend, hlast⟩ := ih rest'.length (by omega) (cursor'.keep production grammar).1 hkept rfl
      rw [houtcome, hgrammar, hproblems, hsame]
      refine ⟨last, ?_, hend, ?_⟩
      · refine forall_depth fun depth hdepth => ?_
        rw [Descent.productions?, hcurrent]
        simp only [TokenStream.current_cons, hopen, hreturned depth (by omega), Option.bind_eq_bind, Option.bind_some,
          Bool.false_eq_true, if_false]
        exact hloop depth (by omega)
      · rw [hlast, ← hreports, hdiagnostics, List.append_assoc]

end Returns

/-! ### The whole descent -/

namespace Cursor

variable {stream : TokenStream} {rest rest' : List Token} {cursor cursor' : Cursor}

theorem Stands.position_lt (hstands : cursor.Stands stream rest) (hstands' : cursor'.Stands stream rest')
    (hless : rest'.length < rest.length) : cursor.position < cursor'.position := by
  have hposition := hstands.position_add
  have hposition' := hstands'.position_add
  omega

theorem Stands.length_le (hstands : cursor.Stands stream rest) : rest.length ≤ stream.descent.stop := by
  have hposition : cursor.position + rest.length = stream.descent.stop := hstands.position_add
  omega

/-- Where no term begins nothing is taken, and where one begins it is returned. -/
theorem Stands.exists_term?_eq (hstop : stream.stop.kind = .endOfInput) (hstands : cursor.Stands stream rest) :
    ∃ term cursor',
      (∀ depth, 5 * stream.descent.stop < depth → stream.descent.term? depth cursor = some (term, cursor')) ∧
      cursor'.Safe stream.descent ∧ (term = none → cursor' = cursor) ∧
      (term.isSome = true → cursor.position < cursor'.position) := by
  have hlength := hstands.length_le
  by_cases hbegins : (stream.current rest).kind.BeginsTerm
  · have hinStep := hstands.inStep (.within stream.stop [] .empty)
    obtain ⟨term, rest', cursor', hreturned, hless, hinStep'⟩ :=
      termReads hstop (fun _ _ => expressionReads hstop) _ _ _ _ hinStep hbegins
    refine ⟨some term, cursor', fun depth hdepth => hreturned depth (by omega), hinStep'.stands.safe, by simp, ?_⟩
    exact fun _ => hstands.position_lt hinStep'.stands hless
  · have hreturned := term?_eq_none hstands hbegins
    exact ⟨none, cursor, fun depth hdepth => hreturned depth (by omega), hstands.safe, fun _ => rfl, by simp⟩

/-- Every production takes a token, be it the name or what stands in its place. -/
theorem Stands.exists_production?_lt (hstop : stream.stop.kind = .endOfInput) (hstands : cursor.Stands stream rest) :
    ∃ token, stream.descent.current? cursor = some token ∧ (token.isEndOfInput = false →
      ∃ production cursor',
        (∀ depth, 5 * stream.descent.stop < depth →
          stream.descent.production? depth cursor = some (production, cursor')) ∧
        cursor'.Safe stream.descent ∧ cursor.position < cursor'.position) := by
  have hlength := hstands.length_le
  refine ⟨_, hstands.current?_eq, ?_⟩
  intro hopen
  cases rest with
  | nil =>
    rw [TokenStream.current_nil, Token.isEndOfInput, hstop] at hopen
    contradiction
  | cons token later =>
    obtain ⟨production, rest', cursor', hreturned, hstands', hle, _⟩ := exists_production?_eq hstop hstands
    rw [List.length_cons] at hlength
    refine ⟨production, cursor', fun depth hdepth => hreturned depth (by omega), hstands'.safe, ?_⟩
    exact hstands.position_lt hstands' (Nat.lt_succ_of_le hle)

end Cursor

theorem TokenStream.trailing?_descent (stream : TokenStream) : stream.descent.trailing? = some stream.trailing := by
  have hinside : stream.descent.stop + 1 ≤ stream.descent.tokens.length := by
    rw [descent, List.length_append, List.length_cons]
    exact Nat.add_le_add_left (Nat.le_add_left 1 _) _
  rw [Descent.trailing?, if_pos hinside]
  change some ((stream.body ++ stream.stop :: stream.trailing).drop (stream.body.length + 1)) = _
  rw [List.drop_append, List.drop_of_length_le (Nat.le_succ _)]
  simp

/-- What follows the end of input is not read. It is reported as one problem. -/
theorem Reading.ofTokens_append_cons {before after : List Token} {stop : Token}
    (hopen : ∀ token ∈ before, token.isEndOfInput = false) (hstop : stop.isEndOfInput = true) :
    ofTokens (before ++ stop :: after) =
      { ofTokens (before ++ [stop]) with
        diagnostics := (ofTokens (before ++ [stop])).diagnostics ++ trailingProblems after } := by
  rw [ofTokens, ofTokens, TokenStream.ofTokens_append_cons hopen hstop, ofTokens_concat_stop hopen hstop]
  simp only [trailingProblems, List.append_nil]
  rfl

namespace Descent

theorem exists_read?_eq_ofTokens (tokens : List Token) :
    ∃ cursor,
      (∀ depth, 5 * (ofTokens tokens).stop < depth →
        read? depth tokens = some ((Reading.ofTokens tokens).grammar, cursor)) ∧
      cursor.diagnostics = (Reading.ofTokens tokens).diagnostics ∧ cursor.Safe (ofTokens tokens) ∧
      cursor.position = (ofTokens tokens).stop := by
  obtain ⟨hdivided, hdescent⟩ := TokenStream.isDivided_ofTokens tokens
  have hstart : Cursor.start.Stands (TokenStream.ofTokens tokens) (TokenStream.ofTokens tokens).body :=
    ⟨Cursor.safe_start _, rfl⟩
  obtain ⟨cursor, hloop, hstands, hdiagnostics⟩ := exists_productions?_eq hdivided .empty hstart
  have hposition : cursor.position = (TokenStream.ofTokens tokens).descent.stop := hstands.position_add
  rw [← TokenStream.events_eq_outcome] at hloop hdiagnostics
  rw [hdescent]
  cases htrailing : (TokenStream.ofTokens tokens).trailing with
  | nil =>
    refine ⟨cursor, ?_, ?_, hstands.safe, hposition⟩
    · intro depth hdepth
      rw [read?, hdescent, hloop depth hdepth]
      simp only [Option.bind_eq_bind, Option.bind_some, TokenStream.trailing?_descent, htrailing]
      rfl
    · rw [hdiagnostics, Reading.ofTokens, htrailing]
      exact (List.append_nil _).symm
  | cons first later =>
    refine ⟨cursor.report (.trailingTokens first.position (later.length + 1) first.description), ?_, ?_,
      (hstands.report _).safe, hposition⟩
    · intro depth hdepth
      rw [read?, hdescent, hloop depth hdepth]
      simp only [Option.bind_eq_bind, Option.bind_some, TokenStream.trailing?_descent, htrailing]
      rfl
    · rw [Cursor.report, hdiagnostics, Reading.ofTokens, htrailing]
      rfl

/-- Reading by recursive descent ends, without a look outside of the tokens, in what `ofTokens` reads. Calls
are nested at most five deep for each token. The cursor never moves back and is never past the first end of
input, where it is at the end. Wherever it is, it moves on with each term that is returned and with each
production before the end of input. Tokens after the end of input add one problem and change nothing else. -/
theorem exists_read?_eq (tokens : List Token) :
    (ofTokens tokens).Fenced ∧
    (∃ cursor,
      (∀ depth, 5 * (ofTokens tokens).stop < depth →
        read? depth tokens = some ((Reading.ofTokens tokens).grammar, cursor)) ∧
      cursor.diagnostics = (Reading.ofTokens tokens).diagnostics ∧ cursor.Safe (ofTokens tokens) ∧
      cursor.position = (ofTokens tokens).stop) ∧
    (∀ cursor : Cursor, cursor.Safe (ofTokens tokens) → ∃ term cursor',
      (∀ depth, 5 * (ofTokens tokens).stop < depth → (ofTokens tokens).term? depth cursor = some (term, cursor')) ∧
      cursor'.Safe (ofTokens tokens) ∧ (term = none → cursor' = cursor) ∧
      (term.isSome = true → cursor.position < cursor'.position)) ∧
    (∀ cursor : Cursor, cursor.Safe (ofTokens tokens) →
      ∃ token, (ofTokens tokens).current? cursor = some token ∧ (token.isEndOfInput = false →
        ∃ production cursor',
          (∀ depth, 5 * (ofTokens tokens).stop < depth →
            (ofTokens tokens).production? depth cursor = some (production, cursor')) ∧
          cursor'.Safe (ofTokens tokens) ∧ cursor.position < cursor'.position)) ∧
    ∀ before stop after, tokens = before ++ stop :: after → (∀ token ∈ before, token.isEndOfInput = false) →
      stop.isEndOfInput = true →
      (Reading.ofTokens tokens).grammar = (Reading.ofTokens (before ++ [stop])).grammar ∧
      (Reading.ofTokens tokens).diagnostics = (Reading.ofTokens (before ++ [stop])).diagnostics ++
        match after with
        | [] => []
        | first :: _ => [.trailingTokens first.position after.length first.description] := by
  obtain ⟨hdivided, hdescent⟩ := TokenStream.isDivided_ofTokens tokens
  refine ⟨hdescent ▸ hdivided.fenced, exists_read?_eq_ofTokens tokens, ?_, ?_, ?_⟩
  · intro cursor hsafe
    rw [hdescent] at hsafe ⊢
    exact hsafe.stands.exists_term?_eq hdivided.stop_kind
  · intro cursor hsafe
    rw [hdescent] at hsafe ⊢
    exact hsafe.stands.exists_production?_lt hdivided.stop_kind
  · rintro before stop after rfl hopen hstop
    rw [Reading.ofTokens_append_cons hopen hstop]
    refine ⟨rfl, ?_⟩
    cases after <;> rfl

/-- The tokens of `a = | ( b`, an end of line and an unknown word, then the end of input, `c` and the end of
input again. -/
def strayTokens : List Token :=
  [⟨.nonTerminal, [0x61], ⟨1, 1⟩, 0⟩, ⟨.equals, [], ⟨1, 3⟩, 1⟩, ⟨.bar, [], ⟨1, 5⟩, 2⟩,
   ⟨.opening .group, [], ⟨1, 7⟩, 3⟩, ⟨.nonTerminal, [0x62], ⟨1, 9⟩, 4⟩, ⟨.endOfLine, [], ⟨1, 10⟩, 5⟩,
   ⟨.unknown, [0x21], ⟨2, 1⟩, 6⟩, ⟨.endOfInput, [], ⟨2, 2⟩, 7⟩, ⟨.nonTerminal, [0x63], ⟨2, 3⟩, 8⟩,
   ⟨.endOfInput, [], ⟨2, 4⟩, 9⟩]

theorem exists_read?_eq_strayTokens :
    ∃ grammar cursor, read? 36 strayTokens = some (grammar, cursor) ∧ grammar.keys = ["a"] ∧ cursor.position = 7 ∧
      (∀ place ∈ cursor.passed, place ≤ 7) ∧
      cursor.diagnostics = (Reading.ofTokens (strayTokens.take 8)).diagnostics ++
        [.trailingTokens ⟨2, 3⟩ 2 "NON_TERMINAL \"c\""] ∧
      (Reading.ofTokens (strayTokens.take 8)).diagnostics =
        [.emptySequence ⟨1, 5⟩ "OR", .unexpected ⟨1, 10⟩ "END_GROUP" "EOL",
         .unexpected ⟨2, 1⟩ "TERMINATOR" "UNKNOWN \"!\""] := by
  obtain ⟨-, ⟨cursor, hread, hdiagnostics, hsafe, hposition⟩, -, -, htrailing⟩ := exists_read?_eq strayTokens
  have hopen : ∀ token ∈ strayTokens.take 7, token.isEndOfInput = false := by decide
  have hafter := (htrailing (strayTokens.take 7) ⟨.endOfInput, [], ⟨2, 2⟩, 7⟩ (strayTokens.drop 8) rfl hopen rfl).2
  refine ⟨_, cursor, hread 36 (by decide), by decide, hposition, ?_, hdiagnostics.trans hafter, by decide⟩
  exact fun place hplace => hsafe.bounded place (List.mem_cons_of_mem _ hplace)

end Descent

end GrammarCheck
