import GrammarCheck.Proofs.Reading.Relabeling
import GrammarCheck.Proofs.Scanning.Layout
import GrammarCheck.Proofs.Verification.Relabeling

/-!
# Layout does not matter

Two sources that lay out the same lexemes have the same tokens, places apart. Neither reading nor
verifying looks at a place, so the sources have the same grammar and the same problems, places apart.
-/

namespace GrammarCheck

/-- The sources have the same tokens in kind, text and number, are read as the same grammar with the
same problems, and verifying the grammar finds the same problems from any start. Only lines and columns
may differ. -/
theorem LaidOut.unpositioned_eq {lexemes : List Lexeme} {source other : List UInt8}
    (hsource : LaidOut false lexemes source) (hother : LaidOut false lexemes other) :
    (scan source).map Token.unpositioned = (scan other).map Token.unpositioned ∧
      (Reading.ofSource source).grammar.relabel .unpositioned =
        (Reading.ofSource other).grammar.relabel .unpositioned ∧
      (Reading.ofSource source).diagnostics.map Diagnostic.unpositioned =
        (Reading.ofSource other).diagnostics.map Diagnostic.unpositioned ∧
      ∀ start, ((Reading.ofSource source).grammar.verify start).map Diagnostic.unpositioned =
        ((Reading.ofSource other).grammar.verify start).map Diagnostic.unpositioned := by
  have hscan : (scan source).map Token.unpositioned = (scan other).map Token.unpositioned :=
    hsource.scan_eq.trans hother.scan_eq.symm
  have hreading := Reading.relabel_ofSource_eq_of_scan .unpositioned hscan
  have hgrammar := congrArg Reading.grammar hreading
  refine ⟨hscan, hgrammar, congrArg Reading.diagnostics hreading, ?_⟩
  intro start
  have hverify := congrArg (·.verify start) hgrammar
  exact ((Grammar.verify_relabel .unpositioned _ start).symm.trans hverify).trans
    (Grammar.verify_relabel .unpositioned _ start)

/-- The sources `a=B;<line end><ff>|.` and ` a =;x<line end>B<line end><ff> | .<line end>;x`. -/
theorem LaidOut.unpositioned_eq_commented :
    let lexemes : List Lexeme :=
      [.word [0x61], .punctuation .equals, .word [0x42], .word [0xff], .punctuation .bar, .punctuation .terminator]
    let source : List UInt8 := [0x61, 0x3d, 0x42, 0x3b, 0x0a, 0xff, 0x7c, 0x2e]
    let other : List UInt8 :=
      [0x20, 0x61, 0x20, 0x3d, 0x3b, 0x78, 0x0a, 0x42, 0x0a, 0xff, 0x20, 0x7c, 0x20, 0x2e, 0x0a, 0x3b, 0x78]
    LaidOut false lexemes source ∧ LaidOut false lexemes other ∧
      (Reading.ofSource source).diagnostics.length = 5 ∧
      (Reading.ofSource source).diagnostics ≠ (Reading.ofSource other).diagnostics ∧
      (Reading.ofSource source).diagnostics.map Diagnostic.unpositioned =
        (Reading.ofSource other).diagnostics.map Diagnostic.unpositioned := by
  intro lexemes source other
  have hplain (byte : UInt8) (hbyte : isDelimiter byte = false) : ∀ other ∈ [byte], isDelimiter other = false :=
    List.forall_mem_singleton.2 hbyte
  have hspace {later : List UInt8} (hlater : Layout later) : Layout (0x20 :: later) := .blank rfl hlater
  have hsource : LaidOut false lexemes source :=
    .word .nil (by simp) (by simp) (hplain 0x61 rfl) <| .punctuation .nil rfl <|
      .word .nil (by simp) (by simp) (hplain 0x42 rfl) <|
        .word (.comment (show newline ∉ [] by simp) .nil) (by simp) (by simp) (hplain 0xff rfl) <|
          .punctuation .nil rfl <| .punctuation .nil rfl <| .stop .nil
  have hother : LaidOut false lexemes other :=
    .word (hspace .nil) (by simp) (by simp) (hplain 0x61 rfl) <| .punctuation (hspace .nil) rfl <|
      .word (.comment (show newline ∉ [0x78] by decide) .nil) (by simp) (by simp) (hplain 0x42 rfl) <|
        .word (.newline .nil) (by simp) (by simp) (hplain 0xff rfl) <|
          .punctuation (hspace .nil) rfl <| .punctuation (hspace .nil) rfl <|
            .openComment (.newline .nil) (show newline ∉ [0x78] by decide)
  obtain ⟨_, _, hdiagnostics, _⟩ := hsource.unpositioned_eq hother
  exact ⟨hsource, hother, by decide +kernel, by decide +kernel, hdiagnostics⟩

end GrammarCheck
