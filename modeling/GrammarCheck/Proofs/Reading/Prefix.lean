import GrammarCheck.Proofs.Reading.Composition
import GrammarCheck.Proofs.Scanning.Prefix

/-!
# What is read of the first lines

The lines of a source are read in the same way whatever follows them, but for a production that they
leave open. Its name is on one of the lines, so whether it is kept or repeated is settled there, and
what follows only has a say in its right-hand side. All other problems and productions of what follows
are on later lines.
-/

namespace GrammarCheck

/-! ### Places of problems and productions -/

/-- The line that a problem is on, if it is on any. -/
def Diagnostic.line? : Diagnostic → Option Nat
  | .unexpected position .. | .emptySequence position _ | .trailingTokens position .. => some position.line
  | .missingProduction _ position | .nonLexicalReference _ position => some position.line
  | .duplicateProduction _ line _ | .unreachable _ line => some line
  | .noStartProduction _ => none

/-- The problem is on one of the first lines, up to the given one. -/
def Diagnostic.isUpTo (line : Nat) (diagnostic : Diagnostic) : Bool := diagnostic.line?.any (· ≤ line)

theorem Diagnostic.ArisesAt.line?_eq {token : Token} {problem : Diagnostic} (harises : problem.ArisesAt token) :
    problem.line? = some token.line := by
  cases harises <;> rfl

namespace Grammar

/-- The name of the production under a key, if it is on one of the first lines. -/
def nameUpTo? (grammar : Grammar) (line : Nat) (key : String) : Option Token :=
  ((grammar.find? key).map (·.name)).filter (·.line ≤ line)

/-- The production is not the last one that begins on the first lines: another one begins on them, and
after it. -/
def IsFollowedUpTo (grammar : Grammar) (line : Nat) (production : Production) : Prop :=
  ∃ key next, grammar.find? key = some next ∧ production.name.index < next.name.index ∧ next.name.line ≤ line

end Grammar

namespace Reading

def diagnosticsUpTo (reading : Reading) (line : Nat) : List Diagnostic :=
  reading.diagnostics.filter (·.isUpTo line)

/-- Both readings have the same problems on the first lines. Their productions that begin on these lines
are under the same keys and have the same names, and but for the last one they are the same. -/
structure AgreesUpTo (reading : Reading) (line : Nat) (other : Reading) : Prop where
  diagnostics_eq : reading.diagnosticsUpTo line = other.diagnosticsUpTo line
  nameUpTo?_eq : ∀ key, reading.grammar.nameUpTo? line key = other.grammar.nameUpTo? line key
  find?_of_isFollowedUpTo : ∀ key production, reading.grammar.find? key = some production →
    reading.grammar.IsFollowedUpTo line production → other.grammar.find? key = some production

/-! ### Later lines -/

variable {grammar : Grammar} {events : List Event} {tokens : List Token} {line : Nat}

theorem line_of_mem_diagnostics (hevents : ∀ event ∈ events, event.ArisesIn tokens) :
    ∀ diagnostic ∈ (ofEvents grammar events).diagnostics, ∃ token ∈ tokens, diagnostic.line? = some token.line := by
  fun_induction ofEvents grammar events with
  | case1 => simp
  | case2 grammar problem rest ih =>
    obtain ⟨hproblem, hrest⟩ := List.forall_mem_cons.1 hevents
    obtain ⟨token, hmem, harises⟩ := hproblem
    exact List.forall_mem_cons.2 ⟨⟨token, hmem, harises.line?_eq⟩, ih hrest⟩
  | case3 grammar production rest _ previous _ ih =>
    obtain ⟨hname, hrest⟩ := List.forall_mem_cons.1 hevents
    exact List.forall_mem_cons.2 ⟨⟨production.name, hname, rfl⟩, ih hrest⟩
  | case4 grammar production rest _ _ ih => exact ih (List.forall_mem_cons.1 hevents).2
  | case5 grammar production rest _ ih => exact ih (List.forall_mem_cons.1 hevents).2

theorem diagnosticsUpTo_ofEvents_of_later (hevents : ∀ event ∈ events, event.ArisesIn tokens)
    (hlater : ∀ token ∈ tokens, line < token.line) : (ofEvents grammar events).diagnosticsUpTo line = [] := by
  apply List.filter_eq_nil_iff.2
  intro diagnostic hmem
  obtain ⟨token, htoken, hline⟩ := line_of_mem_diagnostics hevents diagnostic hmem
  have hless := hlater token htoken
  rw [Diagnostic.isUpTo, hline, Option.any_some, decide_eq_true_iff]
  omega

theorem name_mem_of_mem_definitions (hevents : ∀ event ∈ events, event.ArisesIn tokens) :
    ∀ production ∈ (ofEvents grammar events).definitions, production.name ∈ tokens := by
  intro production hmem
  obtain ⟨event, hevent, hproduction⟩ := List.mem_filterMap.1 ((sublist_definitions grammar events).subset hmem)
  cases event with
  | problem problem => contradiction
  | production completed =>
    obtain rfl := Option.some.inj hproduction
    exact hevents _ hevent

theorem diagnosticsUpTo_followedBy (reading later : Reading) (line : Nat) :
    (reading.followedBy later).diagnosticsUpTo line = reading.diagnosticsUpTo line ++ later.diagnosticsUpTo line :=
  List.filter_append _ _

/-! ### The production that is left open -/

/-- Whether a production is kept depends on its name only. -/
theorem exists_ofEvents_pending (grammar : Grammar) (pending? : Option Token) :
    ∃ (diagnostics : List Diagnostic) (kept? : Option Token), ∀ expression,
      let reading := ofEvents grammar (pending?.toList.map fun name => .production ⟨name, expression⟩)
      reading.diagnostics = diagnostics ∧ reading.definitions = kept?.toList.map fun name => ⟨name, expression⟩ := by
  cases pending? with
  | none => exact ⟨[], none, fun _ => ⟨rfl, rfl⟩⟩
  | some name =>
    by_cases hkind : name.kind = .nonTerminal
    · cases hfind : grammar.find? name.spelling with
      | some previous =>
        refine ⟨[.duplicateProduction name.spelling name.line previous.name.line], none, ?_⟩
        intro expression reading
        have hreading : reading = report _ (ofEvents grammar []) := ofEvents_repeated hkind hfind
        rw [hreading]
        exact ⟨rfl, rfl⟩
      | none =>
        refine ⟨[], some name, ?_⟩
        intro expression reading
        have hreading : reading = define ⟨name, expression⟩ (ofEvents _ []) := ofEvents_new hkind hfind
        rw [hreading]
        exact ⟨rfl, rfl⟩
    · refine ⟨[], none, ?_⟩
      intro expression reading
      have hreading : reading = ofEvents grammar [] := ofEvents_unnamed hkind
      rw [hreading]
      exact ⟨rfl, rfl⟩

/-- What tokens on later lines bring about on the first lines is settled by the grammar and the phase
that they meet, but for the right-hand side of the production that is open. -/
theorem exists_ofEvents_outcome (grammar : Grammar) (phase : Phase) (line : Nat) :
    ∃ (diagnostics : List Diagnostic) (kept? : Option Token), ∀ {following : List Token} {stop : Token},
      ¬stop.kind.BeginsTerm → (∀ token ∈ stop :: following, line < token.line) →
        (ofEvents grammar (phase.outcome following stop)).diagnosticsUpTo line = diagnostics ∧
          ∃ expression later, (ofEvents grammar (phase.outcome following stop)).definitions =
              kept?.toList.map (fun name => ⟨name, expression⟩) ++ later ∧
            ∀ production ∈ later, line < production.name.line := by
  obtain ⟨diagnostics, kept?, hpending⟩ := exists_ofEvents_pending grammar phase.pending?
  refine ⟨diagnostics.filter (·.isUpTo line), kept?, ?_⟩
  intro following stop hstop hlater
  obtain ⟨problems, expression, others, houtcome, hproblems, hothers⟩ := phase.exists_outcome following hstop
  obtain ⟨hdiagnostics, hdefinitions⟩ := hpending expression
  -- the problems change nothing, so the open production meets the grammar as it was
  have hkeeps : (ofEvents grammar problems).grammar = grammar ∧ (ofEvents grammar problems).definitions = [] :=
    ofEvents_problems hproblems
  obtain ⟨hgrammar, hnone⟩ := hkeeps
  rw [houtcome, ofEvents_append, ofEvents_append, hgrammar]
  generalize ofEvents grammar (phase.pending?.toList.map fun name => .production ⟨name, expression⟩) = pending at *
  refine ⟨?_, expression, (ofEvents pending.grammar others).definitions, ?_, ?_⟩
  · rw [diagnosticsUpTo_followedBy, diagnosticsUpTo_followedBy, diagnosticsUpTo_ofEvents_of_later hothers hlater,
      diagnosticsUpTo_ofEvents_of_later (fun event hmem => (hproblems event hmem).arisesIn) hlater, diagnosticsUpTo,
      hdiagnostics, List.nil_append, List.append_nil]
  · rw [definitions_followedBy, definitions_followedBy, hnone, List.nil_append, hdefinitions]
    rfl
  · exact fun production hmem => hlater _ (name_mem_of_mem_definitions hothers production hmem)

/-- What is read of whole lines is settled by them, but for the right-hand side of the last production
that begins on them. -/
theorem exists_ofSource_append {lines : List UInt8} (hlines : WholeLines lines) :
    ∃ (diagnostics : List Diagnostic) (definitions : List Production) (kept? : Option Token), ∀ more,
      (ofSource (lines ++ more)).diagnosticsUpTo (lines.count newline) = diagnostics ∧
        ∃ expression later, (ofSource (lines ++ more)).definitions =
            definitions ++ (kept?.toList.map (fun name => ⟨name, expression⟩) ++ later) ∧
          ∀ production ∈ later, lines.count newline < production.name.line := by
  obtain ⟨first, hfirst⟩ := exists_scan_append hlines
  let reading := ofEvents .empty (Phase.between.events first)
  obtain ⟨diagnostics, kept?, houtcome⟩ :=
    exists_ofEvents_outcome reading.grammar (Phase.between.after first) (lines.count newline)
  refine ⟨reading.diagnosticsUpTo (lines.count newline) ++ diagnostics, reading.definitions, kept?, ?_⟩
  intro more
  obtain ⟨following, stop, hscan, hopen, hstop, hlater⟩ := hfirst more
  have hstream : TokenStream.ofTokens (scan (lines ++ more)) = ⟨first ++ following, stop, []⟩ := by
    rw [hscan, TokenStream.ofTokens_append hopen ⟨stop, List.mem_singleton_self stop, hstop⟩]
    simp [TokenStream.ofTokens, hstop]
  have hbegins : ¬stop.kind.BeginsTerm := by
    have hnot := TokenStream.not_beginsTerm_stop (scan (lines ++ more))
    rwa [hstream] at hnot
  obtain ⟨hdiagnostics, expression, others, hdefinitions, hothers⟩ := houtcome hbegins hlater
  have hevents : (TokenStream.ofTokens (scan (lines ++ more))).events =
      Phase.between.events first ++ (Phase.between.after first).outcome following stop := by
    rw [hstream, TokenStream.events_eq_outcome, Phase.outcome_append]
  have htrailing : (TokenStream.ofTokens (scan (lines ++ more))).trailing = [] := by rw [hstream]
  refine ⟨?_, expression, others, ?_, hothers⟩
  · rw [diagnosticsUpTo, ofSource, diagnostics_ofTokens, htrailing, trailingProblems, List.append_nil, hevents, ← diagnosticsUpTo,
      ofEvents_append, diagnosticsUpTo_followedBy, hdiagnostics]
  · rw [ofSource, definitions_ofTokens, hevents, ofEvents_append, definitions_followedBy, hdefinitions]

/-! ### Sources with the same first lines -/

/-- The productions come in the order of their names. -/
theorem pairwise_index_definitions (source : List UInt8) :
    (ofSource source).definitions.Pairwise (·.name.index < ·.name.index) := by
  have hnames : ((ofSource source).definitions.map (·.name)).Sublist (scan source) := by
    have hbody : (TokenStream.ofTokens (scan source)).body.Sublist (scan source) := by
      rw [TokenStream.body_ofTokens]
      exact List.takeWhile_sublist _
    refine List.Sublist.trans ?_ hbody
    have hproductions := sublist_definitions .empty (TokenStream.ofTokens (scan source)).events
    exact (hproductions.map _).trans
      (Phase.sublist_names_outcome .between _ (TokenStream.not_beginsTerm_stop (scan source)))
  exact List.Pairwise.of_map Production.name (fun _ _ => id) ((pairwise_index_scan source).sublist hnames)

variable {source : List UInt8} {definitions later : List Production} {kept? : Option Token}
  {expression : Option Expression}

/-- The names that begin on the first lines do not depend on the right-hand side of the last one. -/
theorem nameUpTo?_eq_some_iff
    (hdefinitions : (ofSource source).definitions =
      definitions ++ (kept?.toList.map (fun name => ⟨name, expression⟩) ++ later))
    (hlater : ∀ production ∈ later, line < production.name.line) {key : String} {name : Token} :
    (ofSource source).grammar.nameUpTo? line key = some name ↔
      (name ∈ definitions.map (·.name) ∨ name ∈ kept?) ∧ name.spelling = key ∧ name.line ≤ line := by
  have hname : (ofSource source).grammar.nameUpTo? line key = some name ↔
      (∃ production ∈ (ofSource source).definitions, production.name = name) ∧ name.spelling = key ∧ name.line ≤ line := by
    rw [Grammar.nameUpTo?, Option.filter_eq_some_iff, Option.map_eq_some_iff, decide_eq_true_iff]
    constructor
    · intro ⟨⟨production, hfind, heq⟩, hline⟩
      obtain ⟨hmem, hkey⟩ := find?_ofTokens_eq_some_iff.1 hfind
      exact ⟨⟨production, hmem, heq⟩, heq ▸ hkey, hline⟩
    · intro ⟨⟨production, hmem, heq⟩, hkey, hline⟩
      exact ⟨⟨production, find?_ofTokens_eq_some_iff.2 ⟨hmem, heq ▸ hkey⟩, heq⟩, hline⟩
  rw [hname, hdefinitions, ← List.mem_map]
  apply and_congr_left
  intro ⟨_, hline⟩
  have hnot : name ∉ later.map (·.name) := by
    intro hmem
    obtain ⟨production, hproduction, rfl⟩ := List.mem_map.1 hmem
    have hless := hlater production hproduction
    omega
  simp [hnot]

/-- A production that another one follows on the first lines is complete on them. -/
theorem mem_of_isFollowedUpTo
    (hdefinitions : (ofSource source).definitions =
      definitions ++ (kept?.toList.map (fun name => ⟨name, expression⟩) ++ later))
    (hlater : ∀ production ∈ later, line < production.name.line) {production : Production}
    (hmem : production ∈ (ofSource source).definitions)
    (hfollowed : (ofSource source).grammar.IsFollowedUpTo line production) : production ∈ definitions := by
  obtain ⟨key, next, hfind, hindex, hline⟩ := hfollowed
  have hnext : next ∈ (ofSource source).definitions := (find?_ofTokens_eq_some_iff.1 hfind).1
  have hordered := pairwise_index_definitions source
  rw [hdefinitions] at hmem hnext hordered
  obtain ⟨_, hrest, hbefore⟩ := List.pairwise_append.1 hordered
  rcases List.mem_append.1 hmem with hfirst | hmem
  · exact hfirst
  rcases List.mem_append.1 hnext with hnext | hnext
  · have hless := hbefore next hnext production hmem
    omega
  have hnot : next ∉ later := by
    intro hnext
    have hless := hlater next hnext
    omega
  -- so the other one is the last that begins on the lines, and comes before all that is left
  obtain ⟨name, hname, rfl⟩ := List.mem_map.1 ((List.mem_append.1 hnext).resolve_right hnot)
  rw [Option.mem_toList.1 hname] at hmem hrest
  rcases List.mem_cons.1 hmem with rfl | hmem
  · exact absurd hindex (Nat.lt_irrefl _)
  · exact absurd ((List.pairwise_cons.1 hrest).1 production hmem) (Nat.lt_asymm hindex)

/-- Sources that begin with the same lines agree on these lines. -/
theorem agreesUpTo_ofSource_append {lines : List UInt8} (hlines : WholeLines lines) (more other : List UInt8) :
    (ofSource (lines ++ more)).AgreesUpTo (lines.count newline) (ofSource (lines ++ other)) := by
  obtain ⟨diagnostics, definitions, kept?, hsource⟩ := exists_ofSource_append hlines
  obtain ⟨hdiagnostics, expression, later, hdefinitions, hlater⟩ := hsource more
  obtain ⟨hdiagnostics', expression', later', hdefinitions', hlater'⟩ := hsource other
  refine ⟨hdiagnostics.trans hdiagnostics'.symm, ?_, ?_⟩
  · intro key
    apply Option.ext
    intro name
    exact (nameUpTo?_eq_some_iff hdefinitions hlater).trans (nameUpTo?_eq_some_iff hdefinitions' hlater').symm
  · intro key production hfind hfollowed
    obtain ⟨hmem, hkey⟩ := find?_ofTokens_eq_some_iff.1 hfind
    have hcomplete : production ∈ definitions := mem_of_isFollowedUpTo hdefinitions hlater hmem hfollowed
    apply find?_ofTokens_eq_some_iff.2
    refine ⟨?_, hkey⟩
    change production ∈ (ofSource (lines ++ other)).definitions
    rw [hdefinitions']
    exact List.mem_append_left _ hcomplete

/-- Two productions of the same name, the second of which is not complete. -/
def openLines : List UInt8 := Utf8.encode "a = | B .\na = [\n"

theorem agreesUpTo_openLines :
    let more := Utf8.encode "C ] .\nb = .\n"
    WholeLines openLines ∧ openLines.count newline = 2 ∧
      (ofSource openLines).diagnostics =
        [.emptySequence ⟨1, 5⟩ "OR", .emptySequence ⟨3, 1⟩ "EOF", .unexpected ⟨3, 1⟩ "END_OPTION" "EOF",
         .unexpected ⟨3, 1⟩ "TERMINATOR" "EOF", .duplicateProduction "a" 2 1] ∧
      (ofSource (openLines ++ more)).diagnostics =
        [.emptySequence ⟨1, 5⟩ "OR", .duplicateProduction "a" 2 1] ∧
      (ofSource (openLines ++ [])).AgreesUpTo 2 (ofSource (openLines ++ more)) := by
  intro more
  have hlines : WholeLines openLines := .inr rfl
  have hcount : openLines.count newline = 2 := rfl
  exact ⟨hlines, hcount, by decide +kernel, by decide +kernel, hcount ▸ agreesUpTo_ofSource_append hlines [] more⟩

end Reading

end GrammarCheck
