import GrammarCheck.Proofs.Scanning.Position
import GrammarCheck.Proofs.Scanning.Prefix
import GrammarCheck.Reading.TokenStream

/-!
# Where the input ends

The scanner counts bytes up to the end of a source and returns the end of input there. For tokens that
lack one, the end of input is assumed to be right after the text of the last of them. The two ways to
find the place agree if no layout follows the last token.
-/

namespace GrammarCheck

variable {source : List UInt8}

/-- The tokens of a source, but for the one that ends the input. -/
def openTokens (source : List UInt8) : List Token := (scan source).filter (!·.isEndOfInput)

namespace Piece

variable {piece : Piece}

theorem Occurs.stop_le_length (hoccurs : piece.Occurs source) : piece.stop ≤ source.length := by
  cases hoccurs with
  | punctuation hbyte => exact (List.getElem?_eq_some_iff.1 hbyte).1
  | @word start stop kind hrun =>
    have hnonempty := hrun.nonempty
    have hlast : Plain source (stop - 1) := hrun.plain (stop - 1) (by omega) (by omega)
    have hinside : stop - 1 < source.length := Nat.lt_of_not_le fun hlength => not_plain_of_length_le hlength hlast
    change stop ≤ source.length
    omega

/-- The place right after a piece is as many bytes further on as the piece has in its text, and one byte
further on if the piece has no text. -/
theorem Occurs.positionAt_stop (hoccurs : piece.Occurs source) :
    positionAt source piece.stop =
      { line := (positionAt source piece.start).line
        column := (positionAt source piece.start).column + max 1 piece.text.length } := by
  have hbounded := hoccurs.stop_le_length
  cases hoccurs with
  | @punctuation offset byte kind hbyte hkind =>
    have hdrop : source.drop offset = [byte] ++ source.drop (offset + 1) := by
      rw [List.singleton_append, List.drop_eq_getElem?_toList_append, hbyte]
      rfl
    have hline : newline ∉ [byte] := by
      intro hmem
      rw [← List.mem_singleton.1 hmem] at hkind
      contradiction
    exact positionAt_of_not_mem hdrop hline
  | @word start stop kind hrun =>
    have hnonempty := hrun.nonempty
    have hdrop : source.drop start = (source.drop start).take (stop - start) ++ (source.drop start).drop (stop - start) :=
      (List.take_append_drop _ _).symm
    have hline : newline ∉ (source.drop start).take (stop - start) :=
      fun hmem => absurd (hrun.isDelimiter_eq_false newline hmem) (by decide)
    have hlength : ((source.drop start).take (stop - start)).length = stop - start := by
      rw [List.length_take, List.length_drop]
      exact Nat.min_eq_left (Nat.sub_le_sub_right hbounded start)
    have hafter := positionAt_of_not_mem hdrop hline
    rwa [hlength, Nat.add_sub_cancel' (Nat.le_of_lt hnonempty), ← Nat.max_eq_right (show 1 ≤ stop - start by omega),
      ← hlength] at hafter

end Piece

/-- The tokens before the end of input are those of the pieces, in the order of the source. -/
theorem exists_openTokens_eq (source : List UInt8) :
    ∃ pieces : List Piece, pieces.Pairwise (fun piece other => piece.start < other.start) ∧
      (∀ piece, piece ∈ pieces ↔ piece.Occurs source) ∧
      openTokens source = pieces.zipIdx.map (fun (piece, index) => piece.token source index) ∧
      scan source = openTokens source ++ [(Piece.endOfInput source).token source pieces.length] := by
  obtain ⟨pieces, hordered, hpieces, htokens⟩ := (Scanner.stands_start source).tokens rfl
  obtain ⟨read, stop, hscan, hread, hstop⟩ := exists_scan_eq_concat source
  have hsplit : scan source = pieces.zipIdx.map (fun (piece, index) => piece.token source index) ++
      [(Piece.endOfInput source).token source pieces.length] := by
    rw [scan, htokens, List.zipIdx_append, List.map_append]
    simp [Scanner.start]
  have hopen : openTokens source = read := by
    have hpasses : ∀ token ∈ read, (!token.isEndOfInput) = true := by
      intro token hmem
      rw [hread token hmem, Bool.not_false]
    rw [openTokens, hscan, List.filter_append, List.filter_eq_self.2 hpasses,
      List.filter_cons_of_neg (by simp [hstop]), List.filter_nil, List.append_nil]
  obtain ⟨hsame, hlast⟩ := List.append_inj' (hscan.symm.trans hsplit) rfl
  refine ⟨pieces, hordered, ?_, hopen.trans hsame, ?_⟩
  · exact fun piece => (hpieces piece).trans (and_iff_left (Nat.zero_le _))
  · rw [hopen, hscan, hlast]

/-- The piece that the last byte belongs to is the last one, and it stops where the source does. -/
theorem Piece.Occurs.eq_concat {piece : Piece} {pieces : List Piece} (hoccurs : piece.Occurs source)
    (hcovers : piece.Covers (source.length - 1))
    (hordered : pieces.Pairwise (fun piece other => piece.start < other.start))
    (hpieces : ∀ piece, piece ∈ pieces ↔ piece.Occurs source) :
    piece.stop = source.length ∧ ∃ earlier, pieces = earlier ++ [piece] := by
  have hbounded := hoccurs.stop_le_length
  have hinside := hoccurs.start_lt_length
  have hcovered := hcovers.2
  refine ⟨by omega, ?_⟩
  have hmem : piece ∈ pieces := (hpieces piece).2 hoccurs
  obtain ⟨earlier, last, rfl⟩ := (List.eq_nil_or_concat' pieces).resolve_left (List.ne_nil_of_mem hmem)
  rcases List.mem_append.1 hmem with hearlier | hlast
  · have hlater : piece.start < last.start := (List.pairwise_append.1 hordered).2.2 piece hearlier last (by simp)
    have hother : last.Occurs source := (hpieces last).1 (by simp)
    have hlength := hother.start_lt_length
    have hsame := hoccurs.eq_of_covers hother ⟨Nat.le_of_lt hlater, by omega⟩ hother.covers_start
    exact absurd (congrArg Piece.start hsame) (Nat.ne_of_lt hlater)
  · exact ⟨earlier, by rw [List.mem_singleton.1 hlast]⟩

/-- If the last byte belongs to a token, the end of input that is assumed after the tokens is the one
that the scanner returns. -/
theorem scan_eq_openTokens_append (hends : source = [] ∨ ∃ piece : Piece, piece.Occurs source ∧
    piece.Covers (source.length - 1)) :
    scan source = openTokens source ++ [.endOfInputAfter (openTokens source)] := by
  obtain ⟨pieces, hordered, hpieces, hopen, hscan⟩ := exists_openTokens_eq source
  rcases hends with rfl | ⟨piece, hoccurs, hcovers⟩
  · have hnone : pieces = [] := by
      apply List.eq_nil_iff_forall_not_mem.2
      intro piece hmem
      exact absurd ((hpieces piece).1 hmem).start_lt_length (Nat.not_lt_zero _)
    rw [hscan, hopen, hnone]
    rfl
  · obtain ⟨hstop, earlier, rfl⟩ := hoccurs.eq_concat hcovers hordered hpieces
    have hlast : (openTokens source).getLast? = some (piece.token source earlier.length) := by
      rw [hopen, List.zipIdx_append, List.map_append]
      simp
    have hlength : (openTokens source).length = (earlier ++ [piece]).length := by
      rw [hopen, List.length_map, List.length_zipIdx]
    have hposition := hoccurs.positionAt_stop
    rw [hstop] at hposition
    rw [hscan, Token.endOfInputAfter, hlast, hlength]
    simp only [Piece.token, Piece.endOfInput, hposition, Token.line]

end GrammarCheck
