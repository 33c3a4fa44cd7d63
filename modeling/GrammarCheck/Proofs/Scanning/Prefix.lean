import GrammarCheck.Proofs.Scanning.Exactness
import Mathlib.Data.List.Basic

/-!
# Sources that begin with the same lines

No blanks, comment or word that begins on a line go on after it. So a scanner reads whole lines in the
same way whatever follows them, and all that it reads afterwards is on later lines.
-/

namespace GrammarCheck

/-! ### Whole lines -/

/-- The bytes are lines, each with the newline that ends it. -/
def WholeLines (bytes : List UInt8) : Prop := bytes = [] ∨ bytes.getLast? = some newline

section WholeLines

variable {bytes passed later following : List UInt8} {byte : UInt8}

theorem WholeLines.of_append (hlines : WholeLines (passed ++ later)) : WholeLines later := by
  by_cases hlater : later = []
  · exact .inl hlater
  · refine .inr ?_
    rcases hlines with hnil | hlast
    · exact absurd (List.append_eq_nil_iff.1 hnil).2 hlater
    · rwa [List.getLast?_append_of_ne_nil passed hlater] at hlast

theorem WholeLines.newline_mem (hlines : WholeLines (byte :: following)) (hbyte : byte ≠ newline) :
    newline ∈ following := by
  have hlast := hlines.resolve_left (List.cons_ne_nil byte following)
  exact (List.mem_cons.1 (List.mem_of_getLast? hlast)).resolve_left (Ne.symm hbyte)

/-- A run that no newline belongs to ends before a newline, be it in the bytes or right after them. -/
theorem takeWhile_dropWhile_append (holds : UInt8 → Bool) {more : List UInt8} (hstops : holds newline = false)
    (hends : newline ∈ bytes ∨ ∀ byte ∈ more.head?, byte = newline) :
    (bytes ++ more).takeWhile holds = bytes.takeWhile holds ∧
      (bytes ++ more).dropWhile holds = bytes.dropWhile holds ++ more := by
  induction bytes with
  | nil =>
    have hmore := hends.resolve_left List.not_mem_nil
    cases more with
    | nil => exact ⟨rfl, rfl⟩
    | cons byte rest =>
      have hbyte : ¬holds byte = true := by simp [hmore byte rfl, hstops]
      exact ⟨List.takeWhile_cons_of_neg hbyte, List.dropWhile_cons_of_neg hbyte⟩
  | cons byte rest ih =>
    rw [List.cons_append]
    by_cases hholds : holds byte = true
    · have hne : newline ≠ byte := by
        rintro rfl
        rw [hstops] at hholds
        contradiction
      obtain ⟨htake, hdrop⟩ := ih (hends.imp_left fun hmem => (List.mem_cons.1 hmem).resolve_left hne)
      simp only [List.takeWhile_cons, List.dropWhile_cons, hholds, if_true, htake, hdrop, and_self]
    · simp only [List.takeWhile_cons, List.dropWhile_cons, hholds, Bool.false_eq_true, if_false, List.cons_append,
        and_self]

end WholeLines

namespace Scanner

variable {scanner scanner' : Scanner} {token? : Option Token}

/-! ### One round -/

/-- What a round passes over ends as many lines as the scanner counts, and a token is on the line at
which the round begins. -/
theorem Round.exists_passed (hround : scanner.Round token? scanner') :
    ∃ passed, scanner.rest = passed ++ scanner'.rest ∧ scanner'.line = scanner.line + passed.count newline ∧
      scanner'.finished = scanner.finished ∧ ∀ token ∈ token?, token.line = scanner.line := by
  cases hround with
  | @blanks passed later hrest _ hblank =>
    have hline : newline ∉ passed := fun hmem => absurd (hblank newline hmem) (by decide)
    exact ⟨passed, hrest, by rw [List.count_eq_zero.2 hline]; rfl, rfl, by simp⟩
  | @comment passed later hrest _ hline _ =>
    exact ⟨passed, hrest, by rw [List.count_eq_zero.2 hline]; rfl, rfl, by simp⟩
  | @lineEnd later hrest => exact ⟨[newline], hrest, rfl, rfl, by simp⟩
  | @punctuation byte kind later hrest hkind =>
    have hline : newline ∉ [byte] := by
      intro hmem
      rw [← List.mem_singleton.1 hmem] at hkind
      contradiction
    refine ⟨[byte], hrest, by rw [List.count_eq_zero.2 hline]; rfl, rfl, ?_⟩
    intro token htoken
    rw [← Option.some.inj htoken]
    rfl
  | @word bytes later hrest _ hplain _ =>
    have hline : newline ∉ bytes := fun hmem => absurd (hplain newline hmem) (by decide)
    refine ⟨bytes, hrest, by rw [List.count_eq_zero.2 hline]; rfl, rfl, ?_⟩
    intro token htoken
    rw [← Option.some.inj htoken]
    rfl

/-- The index counts the tokens that are returned. -/
theorem Round.index_eq (hround : scanner.Round token? scanner') :
    scanner'.index = scanner.index + token?.toList.length := by
  cases hround <;> rfl

theorem Round.isEndOfInput_eq_false (hround : scanner.Round token? scanner') :
    ∀ token ∈ token?, token.isEndOfInput = false := by
  intro token htoken
  cases hround with
  | @punctuation byte kind later _ hkind =>
    obtain rfl := Option.some.inj htoken
    have hchar := (Kind.ofPunctuation?_eq_some_iff byte kind).1 hkind
    apply beq_eq_false_iff_ne.2
    rintro (rfl : kind = .endOfInput)
    contradiction
  | @word bytes later _ _ _ _ =>
    obtain rfl := Option.some.inj htoken
    apply beq_eq_false_iff_ne.2
    change Kind.ofWord bytes ≠ .endOfInput
    rcases Kind.ofWord_cases bytes with hkind | hkind | hkind <;> rw [hkind] <;> decide
  | _ => contradiction

/-- The scanner with more of the source after what is left. -/
def extend (scanner : Scanner) (more : List UInt8) : Scanner := { scanner with rest := scanner.rest ++ more }

/-- A round does not look beyond the end of its line. The cases are those of the next byte. -/
theorem advance_extend {more : List UInt8} (hrest : scanner.rest ≠ [])
    (hends : WholeLines scanner.rest ∨ ∀ byte ∈ more.head?, byte = newline) :
    (scanner.extend more).advance = (scanner.advance.1, scanner.advance.2.extend more) := by
  obtain ⟨byte, following, hfollowing⟩ := List.exists_cons_of_ne_nil hrest
  have hmore : (scanner.extend more).rest = byte :: (following ++ more) := by rw [extend, hfollowing, List.cons_append]
  rw [hfollowing] at hends
  by_cases hnewline : byte = newline
  · subst hnewline
    rw [advance_of_newline hfollowing, advance_of_newline hmore]
    rfl
  have hline : newline ∈ following ∨ ∀ byte ∈ more.head?, byte = newline :=
    hends.imp_left fun hlines => hlines.newline_mem hnewline
  by_cases hblank : isBlank byte = true
  · obtain ⟨htake, hdrop⟩ := takeWhile_dropWhile_append isBlank rfl hline
    rw [advance_of_isBlank hfollowing hblank, advance_of_isBlank hmore hblank, htake, hdrop]
    rfl
  by_cases hmarker : byte = commentMarker
  · subst hmarker
    obtain ⟨htake, hdrop⟩ := takeWhile_dropWhile_append (· != newline) rfl hline
    rw [advance_of_marker hfollowing, advance_of_marker hmore, htake, hdrop]
    rfl
  cases hpunctuation : Kind.ofPunctuation? byte with
  | some kind =>
    rw [advance_of_punctuation hfollowing hpunctuation, advance_of_punctuation hmore hpunctuation]
    rfl
  | none =>
    have hdelimiter : isDelimiter byte = false :=
      (isDelimiter_eq_false_iff byte).2 ⟨Bool.eq_false_iff.2 hblank, hnewline, hmarker, hpunctuation⟩
    obtain ⟨htake, hdrop⟩ := takeWhile_dropWhile_append (!isDelimiter ·) rfl hline
    rw [advance_of_word hfollowing hdelimiter, advance_of_word hmore hdelimiter, htake, hdrop]
    rfl

/-! ### All rounds -/

/-- By induction on the rounds, which leave fewer lines and whatever follows them. -/
theorem exists_tokens_extend (hfinished : scanner.finished = false) :
    ∃ (read : List Token) (last : Scanner), last.rest = [] ∧ last.finished = false ∧
      last.line = scanner.line + scanner.rest.count newline ∧ last.index = scanner.index + read.length ∧
      ∀ more : List UInt8, (WholeLines scanner.rest ∨ ∀ byte ∈ more.head?, byte = newline) →
        (scanner.extend more).tokens = read ++ (last.extend more).tokens := by
  induction hremaining : scanner.remaining using Nat.strongRecOn generalizing scanner with
  | _ remaining ih =>
    by_cases hrest : scanner.rest = []
    · exact ⟨[], scanner, hrest, hfinished, by rw [hrest]; rfl, rfl, fun _ _ => rfl⟩
    · have hround := round_advance hrest
      obtain ⟨passed, hpassed, hline, hunfinished, _⟩ := hround.exists_passed
      have hless : scanner.advance.2.remaining < remaining := hremaining ▸ remaining_advance_lt scanner hfinished
      obtain ⟨read, last, hlast, hlastFinished, hlastLine, hlastIndex, htokens⟩ :=
        ih _ hless (hunfinished.trans hfinished) rfl
      refine ⟨scanner.advance.1.toList ++ read, last, hlast, hlastFinished, ?_, ?_, ?_⟩
      · rw [hlastLine, hline, hpassed, List.count_append, Nat.add_assoc]
      · rw [hlastIndex, hround.index_eq, List.length_append, Nat.add_assoc]
      · intro more hends
        have hmore : (scanner.extend more).finished = false := hfinished
        have hlater : WholeLines scanner.advance.2.rest ∨ ∀ byte ∈ more.head?, byte = newline := by
          rw [hpassed] at hends
          exact hends.imp_left WholeLines.of_append
        rw [tokens_of_not_finished hmore, advance_extend hrest hends, htokens more hlater, List.append_assoc]

theorem line_le_of_mem_tokens : ∀ token ∈ scanner.tokens, scanner.line ≤ token.line := by
  induction hremaining : scanner.remaining using Nat.strongRecOn generalizing scanner with
  | _ remaining ih =>
    intro token hmem
    cases hfinished : scanner.finished with
    | true =>
      rw [tokens_of_finished hfinished] at hmem
      contradiction
    | false =>
      rw [tokens_of_not_finished hfinished] at hmem
      by_cases hrest : scanner.rest = []
      · rw [advance_of_rest_eq_nil hrest, tokens_of_finished rfl, List.append_nil] at hmem
        rw [List.mem_singleton.1 hmem]
        exact Nat.le_refl _
      · obtain ⟨passed, _, hline, _, htoken⟩ := (round_advance hrest).exists_passed
        rcases List.mem_append.1 hmem with hnow | hlater
        · exact Nat.le_of_eq (htoken token (Option.mem_toList.1 hnow)).symm
        · have hless : scanner.advance.2.remaining < remaining := hremaining ▸ remaining_advance_lt scanner hfinished
          have hle := ih _ hless rfl token hlater
          omega

/-- The end of input is the last token and no other one. -/
theorem exists_tokens_eq_concat (hfinished : scanner.finished = false) :
    ∃ read stop, scanner.tokens = read ++ [stop] ∧ (∀ token ∈ read, token.isEndOfInput = false) ∧
      stop.isEndOfInput = true := by
  induction hremaining : scanner.remaining using Nat.strongRecOn generalizing scanner with
  | _ remaining ih =>
    by_cases hrest : scanner.rest = []
    · rw [tokens_of_rest_eq_nil hfinished hrest]
      exact ⟨[], scanner.token .endOfInput [], rfl, by simp, rfl⟩
    · rw [tokens_of_not_finished hfinished]
      have hround := round_advance hrest
      obtain ⟨passed, _, _, hunfinished, _⟩ := hround.exists_passed
      have hless : scanner.advance.2.remaining < remaining := hremaining ▸ remaining_advance_lt scanner hfinished
      obtain ⟨read, stop, htokens, hread, hstop⟩ := ih _ hless (hunfinished.trans hfinished) rfl
      refine ⟨scanner.advance.1.toList ++ read, stop, by rw [htokens, List.append_assoc], ?_, hstop⟩
      intro token hmem
      rcases List.mem_append.1 hmem with hnow | hlater
      · exact hround.isEndOfInput_eq_false token (Option.mem_toList.1 hnow)
      · exact hread token hlater

end Scanner

/-! ### The tokens of a source -/

theorem exists_scan_eq_concat (source : List UInt8) :
    ∃ read stop, scan source = read ++ [stop] ∧ (∀ token ∈ read, token.isEndOfInput = false) ∧
      stop.isEndOfInput = true :=
  Scanner.exists_tokens_eq_concat rfl

/-- The tokens of whole lines come first whatever follows the lines, and the others are on later lines. -/
theorem exists_scan_append {lines : List UInt8} (hlines : WholeLines lines) :
    ∃ first, ∀ more, ∃ later stop, scan (lines ++ more) = first ++ later ++ [stop] ∧
      (∀ token ∈ first ++ later, token.isEndOfInput = false) ∧ stop.isEndOfInput = true ∧
      ∀ token ∈ stop :: later, lines.count newline < token.line := by
  obtain ⟨first, last, _, hfinished, hline, _, htokens⟩ :=
    Scanner.exists_tokens_extend (show (Scanner.start lines).finished = false from rfl)
  refine ⟨first, fun more => ?_⟩
  have hunfinished : (last.extend more).finished = false := hfinished
  obtain ⟨later, stop, hlater, _, _⟩ := Scanner.exists_tokens_eq_concat hunfinished
  have hscan : scan (lines ++ more) = first ++ later ++ [stop] := by
    have hextend : scan (lines ++ more) = ((Scanner.start lines).extend more).tokens := rfl
    rw [hextend, htokens more (.inl hlines), hlater, List.append_assoc]
  obtain ⟨read, stop', hread, hopen, hstop⟩ := exists_scan_eq_concat (lines ++ more)
  rw [hscan] at hread
  obtain ⟨rfl, hsame⟩ := List.append_inj' hread rfl
  obtain rfl := List.singleton_inj.1 hsame
  refine ⟨later, stop, hscan, hopen, hstop, ?_⟩
  intro token hmem
  have htoken : token ∈ (last.extend more).tokens := by
    rw [hlater]
    simpa [or_comm] using hmem
  have hle : (last.extend more).line ≤ token.line := Scanner.line_le_of_mem_tokens token htoken
  have hlast : (last.extend more).line = 1 + lines.count newline := hline
  omega

/-- The index of a token counts the tokens before it. -/
theorem map_index_scan (source : List UInt8) : (scan source).map (·.index) = List.range (scan source).length := by
  obtain ⟨pieces, _, _, htokens⟩ := (Scanner.stands_start source).tokens rfl
  have hindex : (Scanner.start source).index = 0 := rfl
  rw [scan, htokens, hindex, List.map_map, List.length_map, List.length_zipIdx, List.range_eq_range',
    ← List.zipIdx_map_snd]
  rfl

theorem index_getElem_scan {source : List UInt8} {place : Nat} (hplace : place < (scan source).length) :
    (scan source)[place].index = place := by
  have hindex := List.getElem_of_eq (map_index_scan source) (i := place) (by rwa [List.length_map])
  rwa [List.getElem_map, List.getElem_range] at hindex

theorem pairwise_index_scan (source : List UInt8) : (scan source).Pairwise (·.index < ·.index) := by
  have hrange : ((scan source).map (·.index)).Pairwise (· < ·) := by
    rw [map_index_scan]
    exact List.pairwise_lt_range
  exact List.pairwise_map.1 hrange

end GrammarCheck
