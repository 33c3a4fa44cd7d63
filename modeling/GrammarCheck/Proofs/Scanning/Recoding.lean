import GrammarCheck.Proofs.Scanning.Round
import GrammarCheck.Proofs.Text.Recoding

/-!
# Scanning recoded sources

Every byte that ends a word, a comment or a run of blanks is below `0x80`, so that recoding a source
recodes each word and each comment by itself. A word that changes is ill formed and holds U+FFFD
afterwards, which is no word character, so that the word is unknown before and after.
-/

namespace GrammarCheck

/-! ### Tokens -/

/-- The token as it is, but for its column. -/
def Token.columnless (token : Token) : Token := { token with position := ⟨token.line, 0⟩ }

/-- The token with the bytes of its spelling for a text and without its column. What agrees in kind, spelling,
line and number becomes the same. -/
def Token.recoded (token : Token) : Token := { token.columnless with text := Utf8.encode token.spelling }

/-! ### Words -/

theorem Kind.ofWord_recode (bytes : List UInt8) : Kind.ofWord (Utf8.recode bytes) = Kind.ofWord bytes := by
  cases hvalid : Utf8.isValid bytes with
  | true => rw [Utf8.recode_of_isValid hvalid]
  | false =>
    have hdecode : Utf8.decode? bytes = none := by simp [Utf8.decode?, hvalid]
    have hword : isWordCharacter '\uFFFD' = false := by decide +kernel
    have hunknown := Kind.ofCharacters_eq_unknown_of_mem (Utf8.replacement_mem_of_not_isValid hvalid) hword
    simp only [Kind.ofWord, Utf8.recode, Utf8.decode?_encode, hdecode, hunknown]

namespace Scanner

/-! ### Two scanners side by side -/

/-- The second scanner has the recoded bytes left and is as far in lines and tokens as the first one. -/
structure IsRecoded (scanner scanner' : Scanner) : Prop where
  rest_eq : scanner'.rest = Utf8.recode scanner.rest
  finished_eq : scanner'.finished = scanner.finished
  line_eq : scanner'.line = scanner.line
  index_eq : scanner'.index = scanner.index

/-- The tokens that two scanners return correspond, and so do the scanners after them. -/
def IsRecodedRound (result result' : Option Token × Scanner) : Prop :=
  result'.1.map Token.columnless = result.1.map Token.recoded ∧ IsRecoded result.2 result'.2

variable {scanner scanner' : Scanner} {byte : UInt8} {following : List UInt8}

theorem IsRecoded.token_eq (hrecoded : IsRecoded scanner scanner') (kind : Kind) (text : List UInt8) :
    (scanner'.token kind (Utf8.recode text)).columnless = (scanner.token kind text).recoded := by
  have hline := hrecoded.line_eq
  have hindex := hrecoded.index_eq
  simp only [token, Token.columnless, Token.recoded, Token.line, Token.spelling, position, Utf8.recode, hline, hindex]

theorem IsRecoded.skip (hrecoded : IsRecoded scanner scanner') (length length' : Nat) (rest : List UInt8) :
    IsRecoded (scanner.skip length rest) (scanner'.skip length' (Utf8.recode rest)) :=
  ⟨rfl, hrecoded.finished_eq, hrecoded.line_eq, hrecoded.index_eq⟩

theorem IsRecoded.skipNewline (hrecoded : IsRecoded scanner scanner') (rest : List UInt8) :
    IsRecoded (scanner.skipNewline rest) (scanner'.skipNewline (Utf8.recode rest)) :=
  ⟨rfl, hrecoded.finished_eq, congrArg (· + 1) hrecoded.line_eq, hrecoded.index_eq⟩

theorem IsRecoded.skipToken (hrecoded : IsRecoded scanner scanner') (length length' : Nat) (rest : List UInt8) :
    IsRecoded (scanner.skipToken length rest) (scanner'.skipToken length' (Utf8.recode rest)) :=
  ⟨rfl, hrecoded.finished_eq, hrecoded.line_eq, congrArg (· + 1) hrecoded.index_eq⟩

theorem isRecodedRound_endOfInput (hrecoded : IsRecoded scanner scanner') (hrest : scanner.rest = []) :
    IsRecodedRound scanner.advance scanner'.advance := by
  have hrest' : scanner'.rest = [] := by rw [hrecoded.rest_eq, hrest, Utf8.recode_nil]
  rw [advance_of_rest_eq_nil hrest, advance_of_rest_eq_nil hrest']
  have hskipped := hrecoded.skipToken 0 0 []
  exact ⟨congrArg some (hrecoded.token_eq .endOfInput []), rfl, rfl, hskipped.line_eq, hskipped.index_eq⟩

theorem advance_of_word_run (hrest : scanner.rest = byte :: following) (hdelimiter : isDelimiter byte = false) :
    scanner.advance =
      (some (scanner.token (Kind.ofWord (scanner.rest.takeWhile (!isDelimiter ·)))
        (scanner.rest.takeWhile (!isDelimiter ·))),
       scanner.skipToken (scanner.rest.takeWhile (!isDelimiter ·)).length
        (scanner.rest.dropWhile (!isDelimiter ·))) := by
  rw [advance_of_word hrest hdelimiter]
  simp only [hrest, List.takeWhile_cons, List.dropWhile_cons, hdelimiter, Bool.not_false, if_true]

/-- The word goes on up to the same delimiter, whatever its first byte is recoded as. -/
theorem isRecodedRound_word (hrecoded : IsRecoded scanner scanner') (hrest : scanner.rest = byte :: following)
    (hdelimiter : isDelimiter byte = false) : IsRecodedRound scanner.advance scanner'.advance := by
  obtain ⟨head, tail, hrecode, hhead⟩ := Utf8.exists_recode_cons byte following
  have hrest' : scanner'.rest = head :: tail := by rw [hrecoded.rest_eq, hrest, hrecode]
  have hdelimiter' : isDelimiter head = false := by
    rcases hhead with ⟨_, rfl, _⟩ | ⟨_, hge⟩
    · exact hdelimiter
    · exact isDelimiter_eq_false_of_ge hge
  have hrun : scanner'.rest.takeWhile (!isDelimiter ·) = Utf8.recode (scanner.rest.takeWhile (!isDelimiter ·)) ∧
      scanner'.rest.dropWhile (!isDelimiter ·) = Utf8.recode (scanner.rest.dropWhile (!isDelimiter ·)) := by
    rw [hrecoded.rest_eq]
    exact Utf8.takeWhile_dropWhile_recode (fun byte hge => by rw [isDelimiter_eq_false_of_ge hge, Bool.not_false]) _
  rw [advance_of_word_run hrest hdelimiter, advance_of_word_run hrest' hdelimiter', hrun.1, hrun.2, Kind.ofWord_recode]
  exact ⟨congrArg some (hrecoded.token_eq _ _), hrecoded.skipToken _ _ _⟩

theorem isRecodedRound_blanks (hrecoded : IsRecoded scanner scanner') (hrest : scanner.rest = byte :: following)
    (hrest' : scanner'.rest = byte :: Utf8.recode following) (hblank : isBlank byte = true) :
    IsRecodedRound scanner.advance scanner'.advance := by
  have hhigh (byte : UInt8) (hge : 0x80 ≤ byte.toNat) : isBlank byte = false :=
    ((isDelimiter_eq_false_iff byte).1 (isDelimiter_eq_false_of_ge hge)).1
  rw [advance_of_isBlank hrest hblank, advance_of_isBlank hrest' hblank, Utf8.dropWhile_recode hhigh]
  exact ⟨rfl, hrecoded.skip _ _ _⟩

theorem isRecodedRound_comment (hrecoded : IsRecoded scanner scanner')
    (hrest : scanner.rest = commentMarker :: following)
    (hrest' : scanner'.rest = commentMarker :: Utf8.recode following) :
    IsRecodedRound scanner.advance scanner'.advance := by
  have hhigh (byte : UInt8) (hge : 0x80 ≤ byte.toNat) : (byte != newline) = true :=
    bne_iff_ne.2 ((isDelimiter_eq_false_iff byte).1 (isDelimiter_eq_false_of_ge hge)).2.1
  rw [advance_of_marker hrest, advance_of_marker hrest', (Utf8.takeWhile_dropWhile_recode hhigh following).2]
  exact ⟨rfl, hrecoded.skip _ _ _⟩

/-- The cases are those of the next byte, which is the same one for both unless it is part of a word. -/
theorem IsRecoded.advance (hrecoded : IsRecoded scanner scanner') :
    IsRecodedRound scanner.advance scanner'.advance := by
  cases hrest : scanner.rest with
  | nil => exact isRecodedRound_endOfInput hrecoded hrest
  | cons byte following =>
    cases hdelimiter : isDelimiter byte with
    | false => exact isRecodedRound_word hrecoded hrest hdelimiter
    | true =>
      have hrest' : scanner'.rest = byte :: Utf8.recode following := by
        rw [hrecoded.rest_eq, hrest, Utf8.recode_cons (toNat_lt_of_isDelimiter hdelimiter)]
      by_cases hblank : isBlank byte = true
      · exact isRecodedRound_blanks hrecoded hrest hrest' hblank
      by_cases hmarker : byte = commentMarker
      · subst hmarker
        exact isRecodedRound_comment hrecoded hrest hrest'
      by_cases hnewline : byte = newline
      · subst hnewline
        rw [advance_of_newline hrest, advance_of_newline hrest']
        exact ⟨rfl, hrecoded.skipNewline following⟩
      cases hpunctuation : Kind.ofPunctuation? byte with
      | none =>
        have hplain : isDelimiter byte = false :=
          (isDelimiter_eq_false_iff byte).2 ⟨Bool.eq_false_iff.2 hblank, hnewline, hmarker, hpunctuation⟩
        rw [hplain] at hdelimiter
        contradiction
      | some kind =>
        rw [advance_of_punctuation hrest hpunctuation, advance_of_punctuation hrest' hpunctuation]
        exact ⟨congrArg some (hrecoded.token_eq kind []), hrecoded.skipToken 1 1 following⟩

end Scanner

theorem map_columnless_scan_recode (source : List UInt8) :
    (scan (Utf8.recode source)).map Token.columnless = (scan source).map Token.recoded := by
  have hstart : Scanner.IsRecoded (Scanner.start source) (Scanner.start (Utf8.recode source)) := ⟨rfl, rfl, rfl, rfl⟩
  apply Scanner.map_tokens_eq_of_advance (fun _ _ hrecoded => hrecoded.finished_eq) _ hstart
  exact fun _ _ hrecoded _ => hrecoded.advance

/-- Well-formed bytes are recoded as they are, and then each text must be so as well. -/
theorem text_eq_of_isValid {source : List UInt8} (hvalid : Utf8.isValid source = true) {token : Token}
    (hmem : token ∈ scan source) : token.text = Utf8.encode token.spelling := by
  have hmap := map_columnless_scan_recode source
  rw [Utf8.recode_of_isValid hvalid] at hmap
  exact congrArg Token.text (List.map_inj_left.1 hmap token hmem)

end GrammarCheck
