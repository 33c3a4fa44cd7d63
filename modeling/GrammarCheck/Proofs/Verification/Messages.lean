import GrammarCheck.Proofs.Scanning.Shown
import GrammarCheck.Proofs.Verification.Positions

/-!
# Messages on one line

No message about a source has a control character in it. Almost all texts of a source that messages repeat
are quoted. Only the name of a production that is defined again is not, and productions are named by
non-terminals, whose characters are letters, digits and underscores.
-/

namespace GrammarCheck

/-! ### Parts of messages -/

@[simp] theorem Kind.noControls_label (kind : Kind) : NoControls kind.label := by
  rcases kind with _ | ⟨_ | _ | _⟩ | ⟨_ | _ | _⟩ | _ | _ | _ | _ | _ | _ | _ <;> decide

@[simp] theorem Position.noControls_render (position : Position) : NoControls position.render := by
  simp +decide [render]

@[simp] theorem Token.noControls_description (token : Token) : NoControls token.description := by
  rw [description]
  split
  · exact token.kind.noControls_label
  · simp +decide

theorem noControls_spelling_of_mem_scan {source : List UInt8} {token : Token} (hmem : token ∈ scan source)
    (hkind : token.kind = .nonTerminal) : NoControls token.spelling := by
  rw [← Token.shown_of_word (.inl hkind)]
  exact (isLexeme_of_mem_scan hmem).noControls_shown

theorem Diagnostic.ArisesAt.noControls_message {token : Token} {problem : Diagnostic}
    (harises : problem.ArisesAt token) : NoControls problem.message := by
  cases harises with
  | unexpected =>
    unfold unexpectedToken message
    simp +decide
  | emptySequence =>
    unfold emptySequenceBefore message
    simp +decide

/-! ### Messages about a source -/

namespace Reading

variable {source : List UInt8}

theorem noControls_message_of_mem_diagnostics :
    ∀ diagnostic ∈ (ofSource source).diagnostics, NoControls diagnostic.message := by
  intro diagnostic hmem
  rcases arisesAt_or_saysRepeated source diagnostic hmem with ⟨token, _, harises⟩ | hrepeats
  · exact harises.noControls_message
  · obtain ⟨repeated, hrepeated, previous, hkind, _, _, rfl⟩ := hrepeats
    have hname := noControls_spelling_of_mem_scan hrepeated hkind
    unfold Diagnostic.message
    simp +decide [hname]

/-- What verifying repeats of reading are missing terms. -/
theorem noControls_message_of_mem_verify {start : String} :
    ∀ diagnostic ∈ (ofSource source).grammar.verify start, NoControls diagnostic.message := by
  intro diagnostic hmem
  cases Grammar.finds_of_mem_verify hmem with
  | problem hfind hoccurs =>
    have hmissing := mem_missingTermsOf_of_mem_occurrences hfind hoccurs
    exact noControls_message_of_mem_diagnostics diagnostic ((missingTerms_sublist_diagnostics _).subset hmissing)
  | _ =>
    unfold Diagnostic.message
    simp +decide

end Reading

end GrammarCheck
