import GrammarCheck.Proofs.CommandLine.Formatting
import GrammarCheck.Proofs.Verification.Messages

/-!
# What a check reports

A check fails if it has problems to report, and it writes one line for each of them, whatever the file
contains: neither a message nor the name of a stage has a newline in it.
-/

namespace GrammarCheck.CommandLine

/-! ### Asking for a check -/

namespace Invocation

variable {file start : String}

theorem ofArguments?_check (hnonempty : file ≠ "") (hfile : Word.ofString file = .plain file)
    (hstart : Word.ofString start = .plain start) :
    ofArguments? ["check", file, "--start", start] = .ok { verbosity := 0, command := .check file start } := by
  have hcheck : Word.ofString "check" = .plain "check" := by decide +kernel
  have hoption : Word.ofString "--start" = .long "start" none := by decide +kernel
  simp [ofArguments?, ofWords?, hcheck, hfile, hoption, hstart, hnonempty, Action.ofName?, Options.ofAction, Options.take,
    Options.takeFile, Options.awaitStart, Options.takeStart, Options.command, bind, Except.bind, pure, Except.pure]

/-- Every start and every name of a file can be given, also those that begin with a dash. -/
theorem ofArguments?_check_separated (hnonempty : file ≠ "") (start : String) :
    ofArguments? ["check", "--start=" ++ start, "--", file] = .ok { verbosity := 0, command := .check file start } := by
  have hcheck : Word.ofString "check" = .plain "check" := by decide +kernel
  have hseparator : Word.ofString "--" = .separator := by decide +kernel
  have hoption : Word.ofString ("--start=" ++ start) = .long "start" (some start) := by simp [Word.ofString]
  simp [ofArguments?, ofWords?, hcheck, hoption, hseparator, hnonempty, Action.ofName?, Options.ofAction, Options.take,
    Options.takeFile, Options.takeStart, Options.command, bind, Except.bind, pure, Except.pure]

end Invocation

namespace Outcome

theorem ofArguments_eq_ofCheck {arguments : List String} {verbosity : Nat} {file start : String}
    {read : String → Except ReadFailure (List UInt8)} {contents : List UInt8}
    (harguments : Invocation.ofArguments? arguments = .ok { verbosity, command := .check file start })
    (hread : read file = .ok contents) : ofArguments arguments read = ofCheck verbosity file start contents := by
  rw [ofArguments, harguments, ofCheck, ← hread]
  rfl

/-! ### Lines of a report -/

/-- The outcome reports what a stage found in a file: the run fails and writes a line for each problem. -/
structure Reports (outcome : Outcome) (stage file : String) (diagnostics : List Diagnostic) : Prop where
  code_eq : outcome.code = 1
  hasLines : HasLines outcome.stdout (diagnostics.map fun diagnostic => s!"{stage}({file}) failed: {diagnostic.message}")

theorem hasLines_stageLines {stage file : String} (hstage : NoControls stage) (hfile : '\n' ∉ file.toList)
    {problems : Problems} (hmessages : ∀ diagnostic ∈ problems.toList, NoControls diagnostic.message) :
    HasLines (stageLines stage file problems)
      (problems.toList.map fun diagnostic => s!"{stage}({file}) failed: {diagnostic.message}") where
  text_eq := by
    rw [List.map_map]
    rfl
  newline_not_mem := by
    intro line hline
    obtain ⟨diagnostic, hmem, rfl⟩ := List.mem_map.1 hline
    simp [hstage.newline_not_mem, hfile, (hmessages diagnostic hmem).newline_not_mem, toString]

theorem reports_stageFailure {stage file : String} (hstage : NoControls stage) (hfile : '\n' ∉ file.toList) (log : String)
    {problems : Problems} (hmessages : ∀ diagnostic ∈ problems.toList, NoControls diagnostic.message) :
    (stageFailure stage file log problems).Reports stage file problems.toList :=
  ⟨rfl, hasLines_stageLines hstage hfile hmessages⟩

/-! ### The stages of a check -/

section Check

variable {verbosity : Nat} {file start : String} {contents : List UInt8}

theorem ofCheck_reports_parse (hfile : '\n' ∉ file.toList) (hsome : (Reading.ofSource contents).diagnostics ≠ []) :
    (ofCheck verbosity file start contents).Reports "Parse" file (Reading.ofSource contents).diagnostics := by
  have hmessages := @Reading.noControls_message_of_mem_diagnostics contents
  obtain ⟨readingLog, _, _, hcheck⟩ := exists_logs_ofCheck verbosity file start contents
  obtain ⟨problems, hproblems, hlist⟩ := Problems.ofList?_of_ne_nil hsome
  rw [hcheck, hproblems]
  rw [← hlist] at hmessages ⊢
  exact reports_stageFailure (by decide) hfile readingLog hmessages

theorem ofCheck_reports_verify (hfile : '\n' ∉ file.toList) (hnone : (Reading.ofSource contents).diagnostics = [])
    (hsome : (Reading.ofSource contents).grammar.verify start ≠ []) :
    (ofCheck verbosity file start contents).Reports "Verify" file ((Reading.ofSource contents).grammar.verify start) := by
  have hmessages := @Reading.noControls_message_of_mem_verify contents start
  obtain ⟨_, verifyingLog, _, hcheck⟩ := exists_logs_ofCheck verbosity file start contents
  obtain ⟨problems, hproblems, hlist⟩ := Problems.ofList?_of_ne_nil hsome
  rw [hcheck, hnone, Problems.ofList?, hproblems]
  rw [← hlist] at hmessages ⊢
  exact reports_stageFailure (by decide) hfile verifyingLog hmessages

theorem ofCheck_of_sound (hnone : (Reading.ofSource contents).diagnostics = [])
    (hsound : (Reading.ofSource contents).grammar.verify start = []) :
    (ofCheck verbosity file start contents).code = 0 ∧ (ofCheck verbosity file start contents).stdout = "" := by
  obtain ⟨_, _, soundLog, hcheck⟩ := exists_logs_ofCheck verbosity file start contents
  rw [hcheck, hnone, Problems.ofList?, hsound]
  exact ⟨rfl, rfl⟩

theorem sound_of_code_eq_zero (hfile : '\n' ∉ file.toList) (hcode : (ofCheck verbosity file start contents).code = 0) :
    (Reading.ofSource contents).diagnostics = [] ∧ (Reading.ofSource contents).grammar.verify start = [] := by
  have hfails {stage : String} {diagnostics : List Diagnostic} :
      ¬(ofCheck verbosity file start contents).Reports stage file diagnostics := by
    intro hreports
    rw [hreports.code_eq] at hcode
    contradiction
  have hnone : (Reading.ofSource contents).diagnostics = [] := by
    by_contra hsome
    exact hfails (ofCheck_reports_parse hfile hsome)
  refine ⟨hnone, ?_⟩
  by_contra hsome
  exact hfails (ofCheck_reports_verify hfile hnone hsome)

end Check

/-- No message about a source has a control character in it. A check of a file with that source succeeds and
writes nothing just if neither stage finds a problem. Otherwise it fails and writes one line for each
problem of the first stage that finds any. Such a check can be asked for with every start and every file. -/
theorem ofArguments_reports (source : List UInt8) (start : String) :
    let reading := Reading.ofSource source
    (∀ diagnostic ∈ reading.diagnostics ++ reading.grammar.verify start, NoControls diagnostic.message) ∧
    (∀ (arguments : List String) (verbosity : Nat) (file : String) (read : String → Except ReadFailure (List UInt8)),
      Invocation.ofArguments? arguments = .ok { verbosity, command := .check file start } →
      read file = .ok source → '\n' ∉ file.toList →
      let outcome := ofArguments arguments read
      (outcome.code = 0 ∧ outcome.stdout = "" ↔ reading.diagnostics = [] ∧ reading.grammar.verify start = []) ∧
      (reading.diagnostics ≠ [] → outcome.Reports "Parse" file reading.diagnostics) ∧
      (reading.diagnostics = [] → reading.grammar.verify start ≠ [] →
        outcome.Reports "Verify" file (reading.grammar.verify start))) ∧
    ∀ file : String, file ≠ "" →
      Invocation.ofArguments? ["check", "--start=" ++ start, "--", file] = .ok ⟨0, .check file start⟩ ∧
      (Word.ofString file = .plain file → Word.ofString start = .plain start →
        Invocation.ofArguments? ["check", file, "--start", start] = .ok ⟨0, .check file start⟩) := by
  intro reading
  refine ⟨?_, ?_, ?_⟩
  · intro diagnostic hmem
    rcases List.mem_append.1 hmem with hmem | hmem
    · exact Reading.noControls_message_of_mem_diagnostics diagnostic hmem
    · exact Reading.noControls_message_of_mem_verify diagnostic hmem
  · intro arguments verbosity file read harguments hread hfile outcome
    have houtcome : outcome = ofCheck verbosity file start source := ofArguments_eq_ofCheck harguments hread
    rw [houtcome]
    refine ⟨?_, ofCheck_reports_parse hfile, ofCheck_reports_verify hfile⟩
    constructor
    · intro ⟨hcode, _⟩
      exact sound_of_code_eq_zero hfile hcode
    · intro ⟨hnone, hsound⟩
      exact ofCheck_of_sound hnone hsound
  · intro file hnonempty
    exact ⟨Invocation.ofArguments?_check_separated hnonempty start, Invocation.ofArguments?_check hnonempty⟩

theorem ofArguments_reports_missing :
    let source := Utf8.encode "a = b ."
    let read (file : String) : Except ReadFailure (List UInt8) := if file = "g" then .ok source else .error .notFound
    let outcome := ofArguments ["check", "g", "--start", "a"] read
    outcome.Reports "Verify" "g" [.missingProduction "b" ⟨1, 5⟩] ∧
      outcome.stdout = "Verify(g) failed: 1:5: missing production \"b\"\n" := by
  intro source read outcome
  have hnone : (Reading.ofSource source).diagnostics = [] := by decide +kernel
  have hverify : (Reading.ofSource source).grammar.verify "a" = [.missingProduction "b" ⟨1, 5⟩] := by decide +kernel
  obtain ⟨_, hreports, hasks⟩ := ofArguments_reports source "a"
  have harguments := (hasks "g" (by decide)).2 (by decide +kernel) (by decide +kernel)
  have hfinds := (hreports _ 0 "g" read harguments rfl (by decide)).2.2 hnone (by rw [hverify]; exact List.cons_ne_nil _ _)
  rw [hverify] at hfinds
  exact ⟨hfinds, by decide +kernel⟩

end Outcome

end GrammarCheck.CommandLine
