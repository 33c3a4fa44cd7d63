import GrammarCheck.CommandLine.Outcome
import GrammarCheck.Proofs.Printing.Reread
import GrammarCheck.Proofs.Verification.Origin

/-!
# Checking what was formatted

Formatting a file keeps what checking it finds. The printed grammar is read as the same grammar, places
apart, and verifying does not look at places. A file with problems is neither printed nor verified: both
commands report the problems and stop.
-/

namespace GrammarCheck

/-! ### Grammars without problems -/

namespace Reading

variable {source : List UInt8}

theorem isComplete_of_mem_productions (hnone : (ofSource source).diagnostics = []) :
    ∀ production ∈ (ofSource source).grammar.productions, production.IsComplete := by
  rw [ofSource, diagnostics_ofTokens, List.append_eq_nil_iff] at hnone
  obtain ⟨productions, hevents, hshaped, _⟩ := TokenStream.exists_productions_of_clean
    (TokenStream.kind_stop_ofTokens (scan source)) (clean_of_diagnostics_ofEvents hnone.1)
  intro production hmem
  obtain ⟨entry, hentry, rfl⟩ := List.mem_map.1 hmem
  have hdefined := (find?_ofTokens_eq_some_iff.1 (Grammar.find?_eq_some_iff.2 hentry)).1
  have hproduction : entry.2 ∈ productionsOf (TokenStream.ofTokens (scan source)).events :=
    (sublist_definitions .empty _).subset hdefined
  rw [hevents] at hproduction
  apply (hshaped entry.2 _).isComplete
  simpa [productionsOf] using hproduction

/-- A grammar that is read without a problem is printed as a text that is read as the same grammar,
places apart. -/
theorem reread_of_diagnostics_eq_nil (hnone : (ofSource source).diagnostics = []) :
    (ofSource source).grammar.reread.diagnostics = [] ∧
      (ofSource source).grammar.reread.grammar.atOrigin = (ofSource source).grammar.atOrigin := by
  have hcomplete := isComplete_of_mem_productions hnone
  obtain ⟨hagain, hshaped, hunplaced⟩ := reread_of_canonical (canonical_ofSource hcomplete)
  refine ⟨hagain, ?_⟩
  apply atOrigin_eq_of_map
  rw [← map_unplaced_eq_map_atOrigin hcomplete, ← hunplaced]
  exact (map_unplaced_eq_map_atOrigin fun production hmem => (hshaped production hmem).isComplete).symm

end Reading

/-! ### The two commands -/

theorem Problems.ofList?_of_ne_nil {diagnostics : List Diagnostic} (hsome : diagnostics ≠ []) :
    ∃ problems, Problems.ofList? diagnostics = some problems ∧ problems.toList = diagnostics := by
  obtain ⟨first, others, rfl⟩ := List.exists_cons_of_ne_nil hsome
  exact ⟨⟨first, others⟩, rfl, rfl⟩

namespace CommandLine.Outcome

/-- The outcome of formatting a file with the given contents. -/
def ofFormat (verbosity : Nat) (file : String) (contents : List UInt8) : Outcome :=
  ofInvocation { verbosity, command := .format file } (.ok contents)

/-- The outcome of checking a file with the given contents. -/
def ofCheck (verbosity : Nat) (file start : String) (contents : List UInt8) : Outcome :=
  ofInvocation { verbosity, command := .check file start } (.ok contents)

variable {verbosity : Nat} {file : String} {contents : List UInt8}

theorem ofFormat_of_none (hnone : (Reading.ofSource contents).diagnostics = []) :
    (ofFormat verbosity file contents).code = 0 ∧
      (ofFormat verbosity file contents).stdout = (Reading.ofSource contents).grammar.render := by
  rw [ofFormat, ofInvocation, ofContents, hnone]
  exact ⟨rfl, rfl⟩

theorem ofFormat_of_some (hsome : (Reading.ofSource contents).diagnostics ≠ []) :
    (ofFormat verbosity file contents).code = 1 ∧
      (ofFormat verbosity file contents).stdout = String.join ((Reading.ofSource contents).diagnostics.map
        fun diagnostic => s!"Parse({file}) failed: {diagnostic.message}\n") := by
  obtain ⟨problems, hproblems, hlist⟩ := Problems.ofList?_of_ne_nil hsome
  rw [ofFormat, ofInvocation, ofContents, hproblems, ← hlist]
  exact ⟨rfl, rfl⟩

theorem diagnostics_of_code_eq_zero (hcode : (ofFormat verbosity file contents).code = 0) :
    (Reading.ofSource contents).diagnostics = [] := by
  by_contra hsome
  rw [(ofFormat_of_some hsome).1] at hcode
  contradiction

theorem diagnostics_of_code_eq_one (hcode : (ofFormat verbosity file contents).code = 1) :
    (Reading.ofSource contents).diagnostics ≠ [] := by
  intro hnone
  rw [(ofFormat_of_none hnone).1] at hcode
  contradiction

/-- What a check does apart from its log. -/
theorem exists_logs_ofCheck (verbosity : Nat) (file start : String) (contents : List UInt8) :
    ∃ readingLog verifyingLog soundLog : String, ofCheck verbosity file start contents =
      match Problems.ofList? (Reading.ofSource contents).diagnostics with
      | some problems => stageFailure "Parse" file readingLog problems
      | none =>
        match Problems.ofList? ((Reading.ofSource contents).grammar.verify start) with
        | some problems => stageFailure "Verify" file verifyingLog problems
        | none => success "" soundLog :=
  ⟨_, _, _, rfl⟩

/-- A file that is read without a problem is checked by verifying its grammar. -/
theorem code_ofCheck (hnone : (Reading.ofSource contents).diagnostics = []) (start : String) :
    (ofCheck verbosity file start contents).code =
      if ((Reading.ofSource contents).grammar.verify start).isEmpty then 0 else 1 := by
  obtain ⟨_, _, _, hcheck⟩ := exists_logs_ofCheck verbosity file start contents
  rw [hcheck, hnone, Problems.ofList?]
  cases (Reading.ofSource contents).grammar.verify start with
  | nil => rfl
  | cons first others => rfl

/-- Both commands stop at the problems of a file. -/
theorem ofCheck_of_some (hsome : (Reading.ofSource contents).diagnostics ≠ []) (start : String) :
    ofCheck verbosity file start contents = ofFormat verbosity file contents := by
  obtain ⟨problems, hproblems, _⟩ := Problems.ofList?_of_ne_nil hsome
  rw [ofCheck, ofFormat, ofInvocation, ofInvocation, ofContents, ofContents, hproblems]

/-- If formatting a file succeeds, formatting what it prints does too and prints the same, and both
texts are checked with the same code: verifying finds the same problems, in the same order, but for the
places in them. If formatting fails, it prints a line for each problem and nothing else, and checking
does nothing but that either. -/
theorem ofCheck_ofFormat (verbosity : Nat) (file : String) (contents : List UInt8) :
    let formatted := Utf8.encode (ofFormat verbosity file contents).stdout
    ((ofFormat verbosity file contents).code = 0 →
      (ofFormat verbosity file formatted).code = 0 ∧
        (ofFormat verbosity file formatted).stdout = (ofFormat verbosity file contents).stdout ∧
        ∀ start,
          (ofCheck verbosity file start formatted).code = (ofCheck verbosity file start contents).code ∧
          ((Reading.ofSource formatted).grammar.verify start).map Diagnostic.unpositioned =
            ((Reading.ofSource contents).grammar.verify start).map Diagnostic.unpositioned) ∧
    ((ofFormat verbosity file contents).code = 1 →
      (ofFormat verbosity file contents).stdout = String.join ((Reading.ofSource contents).diagnostics.map
          fun diagnostic => s!"Parse({file}) failed: {diagnostic.message}\n") ∧
        ∀ start, (ofCheck verbosity file start contents).code = 1 ∧
          ofCheck verbosity file start contents = ofFormat verbosity file contents) := by
  intro formatted
  refine ⟨?_, ?_⟩
  · intro hcode
    have hnone := diagnostics_of_code_eq_zero hcode
    have hformatted : Reading.ofSource formatted = (Reading.ofSource contents).grammar.reread :=
      congrArg (fun text => Reading.ofSource (Utf8.encode text)) (ofFormat_of_none hnone).2
    obtain ⟨hagain, horigin⟩ := Reading.reread_of_diagnostics_eq_nil hnone
    rw [← hformatted] at hagain horigin
    have hverify (start : String) := Grammar.map_unpositioned_verify_of_atOrigin horigin start
    refine ⟨(ofFormat_of_none hagain).1, ?_, fun start => ⟨?_, hverify start⟩⟩
    · rw [(ofFormat_of_none hagain).2, (ofFormat_of_none hnone).2, ← Grammar.render_atOrigin, horigin,
        Grammar.render_atOrigin]
    · rw [code_ofCheck hagain, code_ofCheck hnone, ← List.isEmpty_map (f := Diagnostic.unpositioned), hverify,
        List.isEmpty_map]
  · intro hcode
    have hsome := diagnostics_of_code_eq_one hcode
    refine ⟨(ofFormat_of_some hsome).2, fun start => ?_⟩
    have hsame : ofCheck verbosity file start contents = ofFormat verbosity file contents := ofCheck_of_some hsome start
    exact ⟨(congrArg Outcome.code hsame).trans hcode, hsame⟩

theorem ofCheck_ofFormat_commented :
    let sound := Utf8.encode "b = a ;\n C . a = \x7b b | d \x7d .\nc = ."
    let broken := Utf8.encode "a = ( b"
    (ofFormat 0 "g" sound).code = 0 ∧ (ofFormat 0 "g" sound).stdout = "a = \x7b b | d \x7d .\nb = a C .\nc = .\n" ∧
      (ofCheck 0 "g" "a" (Utf8.encode (ofFormat 0 "g" sound).stdout)).code = 1 ∧
      (ofFormat 2 "g" broken).code = 1 ∧ ofCheck 2 "g" "a" broken = ofFormat 2 "g" broken := by
  intro sound broken
  have hsound : (ofFormat 0 "g" sound).code = 0 := by decide +kernel
  have hcheck : (ofCheck 0 "g" "a" sound).code = 1 := by decide +kernel
  have hbroken : (ofFormat 2 "g" broken).code = 1 := by decide +kernel
  obtain ⟨_, _, hagree⟩ := (ofCheck_ofFormat 0 "g" sound).1 hsound
  obtain ⟨_, hstops⟩ := (ofCheck_ofFormat 2 "g" broken).2 hbroken
  exact ⟨hsound, by decide +kernel, (hagree "a").1.trans hcheck, hbroken, (hstops "a").2⟩

end CommandLine.Outcome

end GrammarCheck
