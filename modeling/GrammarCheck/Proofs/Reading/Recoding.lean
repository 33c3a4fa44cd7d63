import GrammarCheck.Proofs.Reading.Relabeling
import GrammarCheck.Proofs.Scanning.Recoding

/-!
# Reading recoded sources

Ill-formed bytes may as well be U+FFFD from the beginning: spellings and descriptions have U+FFFD for
them already, and no kind of token changes. What does change is how many bytes a line has before
a token, so the columns.
-/

namespace GrammarCheck

/-! ### Taking columns away -/

/-- The diagnostic as it is, but for the columns in it. -/
def Diagnostic.columnless : Diagnostic → Diagnostic
  | .unexpected position expected found => .unexpected ⟨position.line, 0⟩ expected found
  | .emptySequence position found => .emptySequence ⟨position.line, 0⟩ found
  | .duplicateProduction name line previousLine => .duplicateProduction name line previousLine
  | .trailingTokens position count found => .trailingTokens ⟨position.line, 0⟩ count found
  | .noStartProduction name => .noStartProduction name
  | .missingProduction name position => .missingProduction name ⟨position.line, 0⟩
  | .unreachable name line => .unreachable name line
  | .nonLexicalReference name position => .nonLexicalReference name ⟨position.line, 0⟩

theorem Token.spelling_recoded (token : Token) : token.recoded.spelling = token.spelling :=
  Utf8.decodeLossy_encode token.spelling

theorem Token.recoded_columnless (token : Token) : token.columnless.recoded = token.recoded := rfl

theorem Token.recoded_recoded (token : Token) : token.recoded.recoded = token.recoded :=
  congrArg (fun text => { token.columnless with text }) (Utf8.recode_recode token.text)

theorem Token.description_recoded (token : Token) : token.recoded.description = token.description := by
  have hempty : (Utf8.recode token.text).isEmpty = token.text.isEmpty := by
    cases htext : token.text with
    | nil => rfl
    | cons byte rest => exact List.isEmpty_eq_false_iff.2 (Utf8.recode_ne_nil (List.cons_ne_nil byte rest))
  rw [description, description, spelling_recoded]
  exact if_congr (iff_of_eq (congrArg (· = true) hempty)) rfl rfl

/-- Columns are taken away, and the texts of tokens are left as their spellings. -/
def Relabeling.recoded : Relabeling where
  token := Token.recoded
  diagnostic := Diagnostic.columnless
  kind_token _ := rfl
  spelling_token := Token.spelling_recoded
  unexpectedToken_eq expected found := by
    rw [Diagnostic.unexpectedToken, Diagnostic.unexpectedToken, Token.description_recoded]
    rfl
  emptySequenceBefore_eq found := by
    rw [Diagnostic.emptySequenceBefore, Diagnostic.emptySequenceBefore, Token.description_recoded]
    rfl
  duplicateProduction_eq _ _ _ := rfl
  noStartProduction_eq _ := rfl
  missingProduction_eq _ _ := rfl
  unreachable_eq _ _ := rfl
  nonLexicalReference_eq _ _ := rfl

/-! ### Recoded sources -/

variable (source : List UInt8)

theorem map_recoded_scan_recode :
    (scan (Utf8.recode source)).map Token.recoded = (scan source).map Token.recoded := by
  have hmap := congrArg (List.map Token.recoded) (map_columnless_scan_recode source)
  simpa only [List.map_map, Function.comp_def, Token.recoded_columnless, Token.recoded_recoded] using hmap

/-- Recoding a source keeps the kind, the line, the number and the spelling of each token, and it keeps what
is read of the source, but for columns and for the bytes of texts that are spelled the same. The words
of well-formed bytes are well formed, so no character is split. -/
theorem Reading.ofSource_recode :
    ((scan (Utf8.recode source)).map fun token => (token.kind, token.line, token.index, token.spelling)) =
        ((scan source).map fun token => (token.kind, token.line, token.index, token.spelling)) ∧
      (ofSource (Utf8.recode source)).grammar.relabel .recoded = (ofSource source).grammar.relabel .recoded ∧
      (ofSource (Utf8.recode source)).diagnostics.map Diagnostic.columnless =
        (ofSource source).diagnostics.map Diagnostic.columnless ∧
      (Utf8.isValid source = true → ∀ token ∈ scan source, Utf8.isValid token.text = true) := by
  have hscan := map_recoded_scan_recode source
  have hreading : (ofSource (Utf8.recode source)).relabel .recoded = (ofSource source).relabel .recoded :=
    relabel_ofSource_eq_of_scan .recoded hscan
  refine ⟨?_, congrArg Reading.grammar hreading, congrArg Reading.diagnostics hreading, ?_⟩
  · have hkept (token : Token) :
        (token.recoded.kind, token.recoded.line, token.recoded.index, token.recoded.spelling) =
          (token.kind, token.line, token.index, token.spelling) := by
      rw [token.spelling_recoded]
      rfl
    have hmap := congrArg (List.map fun token => (token.kind, token.line, token.index, token.spelling)) hscan
    simpa only [List.map_map, Function.comp_def, hkept] using hmap
  · intro hvalid token htoken
    rw [text_eq_of_isValid hvalid htoken]
    exact Utf8.isValid_encode token.spelling

/-- The sources `a=<e2 82>|.;<c3><line end>B<ff>=` and `é=Ü.`. -/
theorem Reading.ofSource_recode_truncated :
    let source : List UInt8 := [0x61, 0x3d, 0xe2, 0x82, 0x7c, 0x2e, 0x3b, 0xc3, 0x0a, 0x42, 0xff, 0x3d]
    let written : List UInt8 := [0xc3, 0xa9, 0x3d, 0xc3, 0x9c, 0x2e]
    Utf8.isValid source = false ∧ (ofSource source).diagnostics.length = 10 ∧
      (ofSource (Utf8.recode source)).diagnostics ≠ (ofSource source).diagnostics ∧
      (ofSource (Utf8.recode source)).diagnostics.map Diagnostic.columnless =
        (ofSource source).diagnostics.map Diagnostic.columnless ∧
      Utf8.isValid written = true ∧ (scan written).map Token.text = [[0xc3, 0xa9], [], [0xc3, 0x9c], [], []] ∧
      ∀ token ∈ scan written, Utf8.isValid token.text = true := by
  intro source written
  have hwritten : Utf8.isValid written = true := by decide +kernel
  obtain ⟨_, _, hdiagnostics, _⟩ := ofSource_recode source
  obtain ⟨_, _, _, hwords⟩ := ofSource_recode written
  exact ⟨by decide +kernel, by decide +kernel, by decide +kernel, hdiagnostics, hwritten, by decide +kernel,
    hwords hwritten⟩

end GrammarCheck
