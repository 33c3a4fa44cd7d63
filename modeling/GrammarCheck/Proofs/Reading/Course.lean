import GrammarCheck.Proofs.Reading.Step

/-!
# The course of reading

What each token brings about, and from that what all of them do. A token causes problems at itself
and nowhere else, and completes no production but the one being read, whose name is an earlier token.
So the productions of a run come in the order of their names, and the one being read comes before
those that begin later.
-/

namespace GrammarCheck

/-- A token of the kind stands at the beginning of a term. -/
def Kind.BeginsTerm (kind : Kind) : Prop := kind = .nonTerminal ∨ kind = .terminal ∨ ∃ bracket, kind = .opening bracket

theorem Kind.not_beginsTerm_of_eq_bar {kind : Kind} (hkind : kind = .bar) : ¬kind.BeginsTerm := by
  simp [BeginsTerm, hkind]

theorem Kind.not_beginsTerm_of_endsExpression {kind : Kind} (hends : kind.endsExpression = true) :
    ¬kind.BeginsTerm := by
  intro hbegins
  rcases hbegins with rfl | rfl | ⟨bracket, rfl⟩ <;> contradiction

/-- The problems that reading finds at a token: it is not of the kind needed there, or it stands where
a term was missing. -/
inductive Diagnostic.ArisesAt (token : Token) : Diagnostic → Prop where
  | unexpected {kind : Kind} (hkind : token.kind ≠ kind) : ArisesAt token (.unexpectedToken kind.label token)
  | emptySequence (hkind : ¬token.kind.BeginsTerm) : ArisesAt token (.emptySequenceBefore token)

theorem Diagnostic.ArisesAt.not_beginsTerm {token : Token}
    (harises : (Diagnostic.emptySequenceBefore token).ArisesAt token) : ¬token.kind.BeginsTerm := by
  generalize hproblem : Diagnostic.emptySequenceBefore token = problem at harises
  cases harises with
  | unexpected => simp [unexpectedToken, emptySequenceBefore] at hproblem
  | emptySequence hkind => exact hkind

namespace Event

/-- The event is a problem at one of the tokens. -/
def IsProblemIn (tokens : List Token) : Event → Prop
  | .problem diagnostic => ∃ token ∈ tokens, diagnostic.ArisesAt token
  | .production _ => False

/-- The event is a problem at one of the tokens or a production that is named by one. -/
def ArisesIn (tokens : List Token) : Event → Prop
  | .problem diagnostic => ∃ token ∈ tokens, diagnostic.ArisesAt token
  | .production completed => completed.name ∈ tokens

variable {tokens tokens' : List Token} {event : Event}

theorem IsProblemIn.arisesIn (hevent : event.IsProblemIn tokens) : event.ArisesIn tokens := by
  cases event with
  | problem diagnostic => exact hevent
  | production completed => exact hevent.elim

theorem IsProblemIn.mono (hevent : event.IsProblemIn tokens) (hsubset : tokens ⊆ tokens') :
    event.IsProblemIn tokens' := by
  cases event with
  | problem diagnostic => exact hevent.imp fun _ harises => ⟨hsubset harises.1, harises.2⟩
  | production completed => exact hevent

theorem ArisesIn.mono (hevent : event.ArisesIn tokens) (hsubset : tokens ⊆ tokens') : event.ArisesIn tokens' := by
  cases event with
  | problem diagnostic => exact hevent.imp fun _ harises => ⟨hsubset harises.1, harises.2⟩
  | production completed => exact hsubset hevent

end Event

theorem productionsOf_eq_nil {tokens : List Token} {events : List Event}
    (hevents : ∀ event ∈ events, event.IsProblemIn tokens) : productionsOf events = [] := by
  apply List.filterMap_eq_nil_iff.2
  intro event hmem
  cases event with
  | problem problem => rfl
  | production production => exact (hevents _ hmem).elim

theorem Kind.isProblemIn_of_mem_mismatch {kind : Kind} {token : Token} :
    ∀ event ∈ kind.mismatch token, event.IsProblemIn [token] := by
  intro event hmem
  rw [mismatch] at hmem
  split at hmem
  · contradiction
  · next hkind =>
    obtain rfl := List.mem_singleton.1 hmem
    exact ⟨token, List.mem_cons_self, .unexpected hkind⟩

theorem Fragment.isProblemIn_of_mem_events {fragment : Fragment} {token : Token} (hkind : ¬token.kind.BeginsTerm) :
    ∀ event ∈ fragment.events token, event.IsProblemIn [token] := by
  intro event hmem
  rw [Fragment.events, sequenceProblems] at hmem
  split at hmem
  · obtain rfl := List.mem_singleton.1 hmem
    exact ⟨token, List.mem_cons_self, .emptySequence hkind⟩
  · contradiction

namespace Phase

/-- The name of the production that is being read. -/
def pending? : Phase → Option Token
  | .between => none
  | .named name | .defining name | .within name _ _ => some name

/-! ### One token -/

/-- What a token can do: it is part of the production being read, which it begins if there is none, or
it completes the production. -/
inductive Progress (phase : Phase) (token : Token) : Phase × List Event → Prop where
  | reads {next : Phase} {events : List Event} (hpending : next.pending? = some (phase.pending?.getD token))
      (hevents : ∀ event ∈ events, event.IsProblemIn [token]) : Progress phase token (next, events)
  | completes {name : Token} {events : List Event} {expression : Option Expression} (hpending : phase.pending? = some name)
      (hevents : ∀ event ∈ events, event.IsProblemIn [token]) :
      Progress phase token (.between, events ++ [.production ⟨name, expression⟩])

variable {name token stop : Token} {frames : List Frame} {frame : Frame} {fragment : Fragment}

theorem isProblemIn_of_mem_closeBracket (hkind : ¬token.kind.BeginsTerm) :
    ∀ event ∈ closeBracket frame fragment token, event.IsProblemIn [token] := by
  intro event hmem
  rcases List.mem_append.1 hmem with hmem | hmem
  · exact Fragment.isProblemIn_of_mem_events hkind event hmem
  · exact Kind.isProblemIn_of_mem_mismatch event hmem

theorem exists_closeProduction (name : Token) (fragment : Fragment) (hkind : ¬token.kind.BeginsTerm) :
    ∃ events, closeProduction name fragment token = events ++ [.production ⟨name, some (fragment.expression token)⟩] ∧
      ∀ event ∈ events, event.IsProblemIn [token] := by
  refine ⟨_, rfl, ?_⟩
  intro event hmem
  rcases List.mem_append.1 hmem with hmem | hmem
  · exact Fragment.isProblemIn_of_mem_events hkind event hmem
  · exact Kind.isProblemIn_of_mem_mismatch event hmem

theorem progress_stepExpression {phase : Phase} (hpending : phase.pending? = some name) :
    Progress phase token (stepExpression name frames fragment token) := by
  have hreads (frames' : List Frame) (fragment' : Fragment) :
      (within name frames' fragment').pending? = some (phase.pending?.getD token) := by
    rw [hpending]
    rfl
  rcases token.kind.expression_cases with hkind | hkind | ⟨bracket, hkind⟩ | hkind | hends
  · rw [stepExpression_nonTerminal hkind]
    exact .reads (hreads _ _) (by simp)
  · rw [stepExpression_terminal hkind]
    exact .reads (hreads _ _) (by simp)
  · rw [stepExpression_opening hkind]
    exact .reads (hreads _ _) (by simp)
  · rw [stepExpression_bar hkind]
    exact .reads (hreads _ _) (Fragment.isProblemIn_of_mem_events (Kind.not_beginsTerm_of_eq_bar hkind))
  · have hbegins : ¬token.kind.BeginsTerm := Kind.not_beginsTerm_of_endsExpression hends
    cases frames with
    | nil =>
      rw [stepExpression_closeProduction hends]
      obtain ⟨events, hclose, hevents⟩ := exists_closeProduction name fragment hbegins
      rw [hclose]
      exact .completes hpending hevents
    | cons frame frames =>
      rw [stepExpression_closeBracket hends]
      exact .reads (hreads _ _) (isProblemIn_of_mem_closeBracket hbegins)

theorem progress (phase : Phase) (token : Token) : Progress phase token (phase.step token) := by
  cases phase with
  | between => exact .reads rfl Kind.isProblemIn_of_mem_mismatch
  | named name => exact .reads rfl Kind.isProblemIn_of_mem_mismatch
  | defining name =>
    by_cases hkind : token.kind = .terminator
    · have hcompletes : Progress (defining name) token (.between, [] ++ [.production ⟨name, none⟩]) :=
        .completes rfl (by simp)
      rwa [step_defining_terminator hkind]
    · rw [step_defining hkind]
      exact progress_stepExpression rfl
  | within name frames fragment => exact progress_stepExpression rfl

theorem arisesAt_of_mem_step {phase : Phase} {problem : Diagnostic} (hmem : .problem problem ∈ (phase.step token).2) :
    problem.ArisesAt token := by
  have hprogress := progress phase token
  generalize phase.step token = result at hprogress hmem
  have hproblem : (Event.problem problem).IsProblemIn [token] := by
    cases hprogress with
    | reads _ hevents => exact hevents _ hmem
    | completes _ hevents => exact hevents _ (by simpa using hmem)
  obtain ⟨other, hother, harises⟩ := hproblem
  rwa [← List.mem_singleton.1 hother]

/-! ### The end of input -/

theorem exists_finishExpression (name : Token) (frames : List Frame) (fragment : Fragment)
    (hstop : ¬stop.kind.BeginsTerm) :
    ∃ events expression, finishExpression name frames fragment stop = events ++ [.production ⟨name, some expression⟩] ∧
      ∀ event ∈ events, event.IsProblemIn [stop] := by
  induction frames generalizing fragment with
  | nil =>
    obtain ⟨events, hclose, hevents⟩ := exists_closeProduction name fragment hstop
    exact ⟨events, _, hclose, hevents⟩
  | cons frame frames ih =>
    obtain ⟨events, expression, hfinish, hevents⟩ := ih (frame.close (fragment.expression stop))
    refine ⟨closeBracket frame fragment stop ++ events, expression, ?_, ?_⟩
    · rw [finishExpression, hfinish, List.append_assoc]
    · intro event hmem
      rcases List.mem_append.1 hmem with hmem | hmem
      · exact isProblemIn_of_mem_closeBracket hstop event hmem
      · exact hevents event hmem

/-- The end of input completes the production that is being read, if there is one. -/
theorem exists_finish (phase : Phase) (hstop : ¬stop.kind.BeginsTerm) :
    ∃ events expression, phase.finish stop = events ++ phase.pending?.toList.map (fun name => .production ⟨name, expression⟩) ∧
      ∀ event ∈ events, event.IsProblemIn [stop] := by
  cases phase with
  | between => exact ⟨[], none, rfl, by simp⟩
  | named name =>
    obtain ⟨events, expression, hfinish, hevents⟩ := exists_finishExpression name [] .empty hstop
    refine ⟨Kind.equals.mismatch stop ++ events, some expression, ?_, ?_⟩
    · rw [finish, hfinish, List.append_assoc]
      rfl
    · intro event hmem
      rcases List.mem_append.1 hmem with hmem | hmem
      · exact Kind.isProblemIn_of_mem_mismatch event hmem
      · exact hevents event hmem
  | defining name =>
    obtain ⟨events, expression, hfinish, hevents⟩ := exists_finishExpression name [] .empty hstop
    exact ⟨events, some expression, hfinish, hevents⟩
  | within name frames fragment =>
    obtain ⟨events, expression, hfinish, hevents⟩ := exists_finishExpression name frames fragment hstop
    exact ⟨events, some expression, hfinish, hevents⟩

/-! ### All tokens -/

/-- What the tokens bring about with the end of input after them. -/
def outcome (phase : Phase) (tokens : List Token) (stop : Token) : List Event :=
  phase.events tokens ++ (phase.after tokens).finish stop

theorem outcome_cons (phase : Phase) (token : Token) (rest : List Token) (stop : Token) :
    phase.outcome (token :: rest) stop = (phase.step token).2 ++ (phase.step token).1.outcome rest stop :=
  List.append_assoc _ _ _

theorem outcome_append (phase : Phase) (first second : List Token) (stop : Token) :
    phase.outcome (first ++ second) stop = phase.events first ++ (phase.after first).outcome second stop := by
  rw [outcome, events_append, after_append, List.append_assoc, outcome]

/-- The production being read is completed, with nothing but problems before it. All that follows
begins with the tokens. -/
theorem exists_outcome (phase : Phase) (tokens : List Token) (hstop : ¬stop.kind.BeginsTerm) :
    ∃ problems expression later,
      phase.outcome tokens stop =
        problems ++ phase.pending?.toList.map (fun name => .production ⟨name, expression⟩) ++ later ∧
      (∀ event ∈ problems, event.IsProblemIn (stop :: tokens)) ∧
      ∀ event ∈ later, event.ArisesIn (stop :: tokens) := by
  induction tokens generalizing phase with
  | nil =>
    obtain ⟨events, expression, hfinish, hevents⟩ := exists_finish phase hstop
    exact ⟨events, expression, [], by rw [List.append_nil, ← hfinish]; rfl, hevents, by simp⟩
  | cons token rest ih =>
    have hnow : [token] ⊆ stop :: token :: rest := by simp
    have hthen : stop :: rest ⊆ stop :: token :: rest :=
      List.cons_subset_cons stop (List.subset_cons_self token rest)
    obtain ⟨problems, expression, later, houtcome, hproblems, hlater⟩ := ih (phase.step token).1
    rw [outcome_cons, houtcome]
    have hprogress := progress phase token
    generalize phase.step token = result at hprogress
    cases hprogress with
    | @reads next events hpending hevents =>
      cases hphase : phase.pending? with
      | some name =>
        rw [hphase] at hpending
        refine ⟨events ++ problems, expression, later, by simp [hpending], ?_, ?_⟩
        · intro event hmem
          rcases List.mem_append.1 hmem with hmem | hmem
          · exact (hevents event hmem).mono hnow
          · exact (hproblems event hmem).mono hthen
        · exact fun event hmem => (hlater event hmem).mono hthen
      | none =>
        rw [hphase] at hpending
        refine ⟨[], none, events ++ problems ++ [.production ⟨token, expression⟩] ++ later, by simp [hpending], by simp, ?_⟩
        intro event hmem
        simp only [List.mem_append, List.mem_singleton] at hmem
        rcases hmem with ((hmem | hmem) | rfl) | hmem
        · exact (hevents event hmem).arisesIn.mono hnow
        · exact (hproblems event hmem).arisesIn.mono hthen
        · exact List.mem_cons_of_mem stop List.mem_cons_self
        · exact (hlater event hmem).mono hthen
    | @completes name events completed hpending hevents =>
      refine ⟨events, completed, problems ++ later, ?_, fun event hmem => (hevents event hmem).mono hnow, ?_⟩
      · rw [hpending]
        simp [pending?]
      · intro event hmem
        rcases List.mem_append.1 hmem with hmem | hmem
        · exact (hproblems event hmem).arisesIn.mono hthen
        · exact (hlater event hmem).mono hthen

/-- The names of productions are tokens, and stand in the same order. -/
theorem sublist_names_outcome (phase : Phase) (tokens : List Token) (hstop : ¬stop.kind.BeginsTerm) :
    ((productionsOf (phase.outcome tokens stop)).map (·.name)).Sublist (phase.pending?.toList ++ tokens) := by
  induction tokens generalizing phase with
  | nil =>
    obtain ⟨events, expression, hfinish, hevents⟩ := exists_finish phase hstop
    have hnames : productionsOf (phase.outcome [] stop) = phase.pending?.toList.map fun name => ⟨name, expression⟩ := by
      change productionsOf (phase.finish stop) = _
      rw [hfinish, productionsOf_append, productionsOf_eq_nil hevents, List.nil_append]
      cases phase.pending? <;> rfl
    rw [hnames]
    cases phase.pending? <;> exact List.Sublist.refl _
  | cons token rest ih =>
    have hrest := ih (phase.step token).1
    rw [outcome_cons, productionsOf_append, List.map_append]
    have hprogress := progress phase token
    generalize phase.step token = result at hprogress hrest
    cases hprogress with
    | @reads next events hpending hevents =>
      rw [hpending] at hrest
      rw [productionsOf_eq_nil hevents]
      refine hrest.trans ?_
      cases phase.pending? with
      | none => exact List.Sublist.refl _
      | some name => exact (List.sublist_cons_self token rest).cons_cons name
    | @completes name events expression hpending hevents =>
      rw [productionsOf_append, productionsOf_eq_nil hevents, hpending]
      exact (hrest.trans (List.sublist_cons_self token rest)).cons_cons name

end Phase

namespace TokenStream

theorem events_eq_outcome (stream : TokenStream) : stream.events = Phase.between.outcome stream.body stream.stop := rfl

/-- What a stream brings about are problems at its tokens and productions that its tokens name. -/
theorem arisesIn_of_mem_events {stream : TokenStream} (hstop : ¬stream.stop.kind.BeginsTerm) :
    ∀ event ∈ stream.events, event.ArisesIn (stream.stop :: stream.body) := by
  obtain ⟨problems, expression, later, houtcome, hproblems, hlater⟩ :=
    Phase.exists_outcome .between stream.body hstop
  intro event hmem
  rw [events_eq_outcome, houtcome] at hmem
  rcases List.mem_append.1 hmem with hmem | hmem
  · exact (hproblems event (by simpa [Phase.pending?] using hmem)).arisesIn
  · exact hlater event hmem

end TokenStream

end GrammarCheck
