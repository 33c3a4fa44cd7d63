import GrammarCheck.Proofs.Scanning.Round

/-!
# The tokens of a source are its pieces

Each round of the scanner returns the piece that begins where it stands, or passes over layout. What
is left after all of them is the end of input. The main statement says so of the whole source:
scanning returns every piece that stands in it, in the order of their offsets, at their places.
-/

namespace GrammarCheck

variable {source : List UInt8}

namespace Scanner

/-- The scanner stands at its offset of the source, and nothing that it has read is still open: a
comment or a word that the next byte is in begins with that byte. -/
structure Stands (source : List UInt8) (scanner : Scanner) : Prop where
  drop_eq : source.drop scanner.offset = scanner.rest
  offset_le : scanner.offset ≤ source.length
  line_eq : scanner.line = (positionAt source scanner.offset).line
  column_eq : scanner.lineStart + (positionAt source scanner.offset).column = scanner.offset + 1
  comment_begins : Commented source scanner.offset → source[scanner.offset]? = some commentMarker
  run_begins : ∀ before, before + 1 = scanner.offset → Plain source before → ¬Plain source scanner.offset

/-- From one scanner to the next one, the piece and no other one begins. -/
structure Passes (source : List UInt8) (scanner : Scanner) (piece? : Option Piece) (scanner' : Scanner) : Prop where
  stands : scanner'.Stands source
  finished_eq : scanner'.finished = scanner.finished
  index_eq : scanner'.index = scanner.index + piece?.toList.length
  offset_lt : scanner.offset < scanner'.offset
  start_eq : ∀ piece ∈ piece?, piece.start = scanner.offset
  occurs_iff : ∀ piece : Piece, piece.Occurs source ∧ scanner.offset ≤ piece.start ↔
    piece ∈ piece? ∨ piece.Occurs source ∧ scanner'.offset ≤ piece.start

variable {scanner scanner' : Scanner} {passed later : List UInt8}

theorem stands_start (source : List UInt8) : (start source).Stands source where
  drop_eq := rfl
  offset_le := Nat.zero_le _
  line_eq := rfl
  column_eq := rfl
  comment_begins := by
    intro ⟨_, marker, hle, hmarker, _⟩
    rwa [Nat.le_zero.1 hle] at hmarker
  run_begins := by
    intro before hbefore
    exact absurd hbefore (Nat.succ_ne_zero before)

theorem Stands.position_eq (hstands : scanner.Stands source) :
    scanner.position = positionAt source scanner.offset := by
  have hline := hstands.line_eq
  have hcolumn := hstands.column_eq
  have hpositive : 1 ≤ (positionAt source scanner.offset).column := Nat.le_add_right 1 _
  rw [position, hline, show scanner.offset - scanner.lineStart + 1 = (positionAt source scanner.offset).column by omega]

theorem Stands.token_eq (hstands : scanner.Stands source) {piece : Piece} (hstart : piece.start = scanner.offset) :
    scanner.token piece.kind piece.text = piece.token source scanner.index := by
  rw [Piece.token, hstart, ← hstands.position_eq, token]

/-! ### Standing after a round -/

theorem Stands.drop_append (hstands : scanner.Stands source) (hrest : scanner.rest = passed ++ later) :
    source.drop scanner.offset = passed ++ later :=
  hstands.drop_eq.trans hrest

theorem Stands.add_length_le (hstands : scanner.Stands source) (hrest : scanner.rest = passed ++ later) :
    scanner.offset + passed.length ≤ source.length := by
  have hlength := congrArg List.length (hstands.drop_append hrest)
  have hoffset := hstands.offset_le
  rw [List.length_drop, List.length_append] at hlength
  omega

theorem Stands.comment_begins_after (hstands : scanner.Stands source) (hrest : scanner.rest = passed ++ later)
    (hpassed : passed ≠ []) (hmarker : commentMarker ∉ passed)
    (hcommented : Commented source (scanner.offset + passed.length)) :
    source[scanner.offset + passed.length]? = some commentMarker :=
  (hcommented.eq_of_not_mem (hstands.drop_append hrest) hstands.comment_begins hpassed hmarker (Nat.le_add_right _ _)
    (Nat.le_refl _)).2

/-- A delimiter ends every word before it, and a word that ends with it has none after it. -/
theorem Stands.run_begins_after (hstands : scanner.Stands source) (hrest : scanner.rest = passed ++ later)
    (hpassed : passed ≠ []) (hdelimiter : ∀ byte ∈ passed, isDelimiter byte = true) {before : Nat}
    (hbefore : before + 1 = scanner.offset + passed.length) : ¬Plain source before := by
  have hpositive : 0 < passed.length := List.length_pos_iff.2 hpassed
  obtain ⟨byte, hbyte, hat⟩ := exists_mem_of_drop_eq (hstands.drop_append hrest)
    (show scanner.offset ≤ before by omega) (by omega)
  exact not_plain_of_isDelimiter hat (hdelimiter byte hbyte)

theorem Stands.skip (hstands : scanner.Stands source) (hrest : scanner.rest = passed ++ later)
    (hline : newline ∉ passed)
    (hcomment : Commented source (scanner.offset + passed.length) →
      source[scanner.offset + passed.length]? = some commentMarker)
    (hrun : ∀ before, before + 1 = scanner.offset + passed.length → Plain source before →
      ¬Plain source (scanner.offset + passed.length)) :
    (scanner.skip passed.length later).Stands source where
  drop_eq := drop_add_of_drop_eq (hstands.drop_append hrest)
  offset_le := hstands.add_length_le hrest
  line_eq := by
    simp only [Scanner.skip, positionAt_of_not_mem (hstands.drop_append hrest) hline]
    exact hstands.line_eq
  column_eq := by
    have hcolumn := hstands.column_eq
    simp only [Scanner.skip, positionAt_of_not_mem (hstands.drop_append hrest) hline]
    omega
  comment_begins := hcomment
  run_begins := hrun

theorem Stands.skipNewline (hstands : scanner.Stands source) (hrest : scanner.rest = [newline] ++ later) :
    (scanner.skipNewline later).Stands source where
  drop_eq := drop_add_of_drop_eq (hstands.drop_append hrest)
  offset_le := hstands.add_length_le hrest
  line_eq := by
    simp only [Scanner.skipNewline, positionAt_of_newline (hstands.drop_append hrest)]
    rw [hstands.line_eq]
  column_eq := by simp only [Scanner.skipNewline, positionAt_of_newline (hstands.drop_append hrest)]
  comment_begins := hstands.comment_begins_after hrest (by simp) (by decide)
  run_begins := by
    intro before hbefore hplain
    exact absurd hplain (hstands.run_begins_after hrest (by simp) (List.forall_mem_singleton.2 rfl) hbefore)

/-- The index of a scanner counts tokens and plays no part in where it stands. -/
theorem Stands.skipToken (hstands : (scanner.skip passed.length later).Stands source) :
    (scanner.skipToken passed.length later).Stands source :=
  ⟨hstands.drop_eq, hstands.offset_le, hstands.line_eq, hstands.column_eq, hstands.comment_begins, hstands.run_begins⟩

/-! ### What a round passes over -/

theorem passes_layout (hpassed : passed ≠ []) (hstands : scanner'.Stands source)
    (hfinished : scanner'.finished = scanner.finished) (hindex : scanner'.index = scanner.index)
    (hoffset : scanner'.offset = scanner.offset + passed.length)
    (hlayout : ∀ place, scanner.offset ≤ place → place < scanner.offset + passed.length → IsLayout source place) :
    Passes source scanner none scanner' where
  stands := hstands
  finished_eq := hfinished
  index_eq := hindex
  offset_lt := by
    have hpositive : 0 < passed.length := List.length_pos_iff.2 hpassed
    omega
  start_eq := by simp
  occurs_iff := by
    intro piece
    rw [hoffset, Piece.occurs_iff_of_isLayout (Nat.le_add_right _ _) hlayout]
    simp

theorem passes_piece {piece : Piece} (hoccurs : piece.Occurs source) (hstart : piece.start = scanner.offset)
    (hstop : piece.stop = scanner'.offset) (hstands : scanner'.Stands source)
    (hfinished : scanner'.finished = scanner.finished) (hindex : scanner'.index = scanner.index + 1) :
    Passes source scanner (some piece) scanner' where
  stands := hstands
  finished_eq := hfinished
  index_eq := hindex
  offset_lt := by
    have hcovers := hoccurs.covers_start.2
    rwa [hstart, hstop] at hcovers
  start_eq := by
    intro other hother
    rwa [← Option.some.inj hother]
  occurs_iff := by
    intro other
    rw [← hstart, ← hstop, hoccurs.occurs_iff other, Option.mem_some_iff, eq_comm]

theorem Stands.passes_blanks (hstands : scanner.Stands source) (hrest : scanner.rest = passed ++ later)
    (hpassed : passed ≠ []) (hblank : ∀ byte ∈ passed, isBlank byte = true) :
    Passes source scanner none (scanner.skip passed.length later) := by
  have hdelimiter : ∀ byte ∈ passed, isDelimiter byte = true :=
    fun byte hbyte => isDelimiter_of_isBlank (hblank byte hbyte)
  have hmarker : commentMarker ∉ passed := fun hmem => absurd (hblank commentMarker hmem) (by decide)
  have hline : newline ∉ passed := fun hmem => absurd (hblank newline hmem) (by decide)
  have hstands' := hstands.skip hrest hline (hstands.comment_begins_after hrest hpassed hmarker)
    fun _ hbefore hplain => absurd hplain (hstands.run_begins_after hrest hpassed hdelimiter hbefore)
  refine passes_layout hpassed hstands' rfl rfl rfl ?_
  intro place hlow hhigh
  obtain ⟨byte, hbyte, hplace⟩ := exists_mem_of_drop_eq (hstands.drop_append hrest) hlow hhigh
  exact .inr ⟨byte, hplace, .inl (hblank byte hbyte)⟩

theorem Stands.passes_comment (hstands : scanner.Stands source) (hrest : scanner.rest = passed ++ later)
    (hmarker : passed.head? = some commentMarker) (hline : newline ∉ passed)
    (hlater : ∀ byte ∈ later.head?, byte = newline) :
    Passes source scanner none (scanner.skip passed.length later) := by
  have hpassed : passed ≠ [] := by
    rintro rfl
    contradiction
  have hpositive : 0 < passed.length := List.length_pos_iff.2 hpassed
  have hdrop : source.drop scanner.offset = passed ++ later := hstands.drop_append hrest
  have hclosed : ¬Commented source (scanner.offset + passed.length) := by
    apply not_commented_of_lineEnd
    rwa [getElem?_add_of_drop_eq hdrop]
  have hstands' := hstands.skip hrest hline (fun hopen => absurd hopen hclosed) fun before _ hplain =>
    absurd (commented_of_comment hdrop hmarker hline (by omega) (by omega)) hplain.not_commented
  refine passes_layout hpassed hstands' rfl rfl rfl ?_
  intro place hlow hhigh
  exact .inl (commented_of_comment hdrop hmarker hline hlow hhigh)

theorem Stands.passes_lineEnd (hstands : scanner.Stands source) (hrest : scanner.rest = [newline] ++ later) :
    Passes source scanner none (scanner.skipNewline later) := by
  refine passes_layout (List.cons_ne_nil newline []) (hstands.skipNewline hrest) rfl rfl rfl ?_
  intro place hlow hhigh
  obtain ⟨byte, hbyte, hplace⟩ := exists_mem_of_drop_eq (hstands.drop_append hrest) hlow hhigh
  exact .inr ⟨byte, hplace, .inr (List.mem_singleton.1 hbyte)⟩

theorem Stands.getElem?_offset (hstands : scanner.Stands source) : source[scanner.offset]? = scanner.rest.head? := by
  rw [← hstands.drop_eq, List.head?_drop]

theorem Stands.passes_punctuation (hstands : scanner.Stands source) {byte : UInt8} {kind : Kind}
    (hrest : scanner.rest = [byte] ++ later) (hkind : Kind.ofPunctuation? byte = some kind) :
    Passes source scanner (some { start := scanner.offset, stop := scanner.offset + 1, kind, text := [] })
      (scanner.skipToken 1 later) := by
  have hdelimiter : ∀ byte' ∈ [byte], isDelimiter byte' = true :=
    List.forall_mem_singleton.2 (isDelimiter_of_ofPunctuation? hkind)
  have hmarker : commentMarker ∉ [byte] := by
    intro hmem
    rw [← List.mem_singleton.1 hmem] at hkind
    contradiction
  have hline : newline ∉ [byte] := by
    intro hmem
    rw [← List.mem_singleton.1 hmem] at hkind
    contradiction
  have hat : source[scanner.offset]? = some byte := by
    rw [hstands.getElem?_offset, hrest]
    rfl
  have huncommented : ¬Commented source scanner.offset := by
    intro hcommented
    have hsame := hstands.comment_begins hcommented
    rw [hat, Option.some.injEq] at hsame
    exact hmarker (List.mem_singleton.2 hsame.symm)
  have hstands' := hstands.skip hrest hline (hstands.comment_begins_after hrest (by simp) hmarker)
    fun _ hbefore hplain => absurd hplain (hstands.run_begins_after hrest (by simp) hdelimiter hbefore)
  exact passes_piece (.punctuation hat hkind huncommented) rfl rfl hstands'.skipToken rfl rfl

theorem Stands.isRun (hstands : scanner.Stands source) (hrest : scanner.rest = passed ++ later) (hpassed : passed ≠ [])
    (hplain : ∀ byte ∈ passed, isDelimiter byte = false) (hlater : ∀ byte ∈ later.head?, isDelimiter byte = true) :
    IsRun source scanner.offset (scanner.offset + passed.length) := by
  have hdrop : source.drop scanner.offset = passed ++ later := hstands.drop_append hrest
  have hmarker : commentMarker ∉ passed := fun hmem => absurd (hplain commentMarker hmem) (by decide)
  have hpositive : 0 < passed.length := List.length_pos_iff.2 hpassed
  have hinside : ∀ place, scanner.offset ≤ place → place < scanner.offset + passed.length → Plain source place := by
    intro place hlow hhigh
    obtain ⟨byte, hbyte, hplace⟩ := exists_mem_of_drop_eq hdrop hlow hhigh
    apply plain_of_isDelimiter_eq_false hplace (hplain byte hbyte)
    intro hcommented
    have hstop := (hcommented.eq_of_not_mem hdrop hstands.comment_begins hpassed hmarker hlow (Nat.le_of_lt hhigh)).1
    omega
  refine ⟨by omega, hinside, ?_, ?_⟩
  · intro before hbefore hplain'
    exact hstands.run_begins before hbefore hplain' (hinside _ (Nat.le_refl _) (by omega))
  · intro hplain'
    obtain ⟨byte, hbyte, hdelimiter⟩ := hplain'.exists_byte
    rw [getElem?_add_of_drop_eq hdrop] at hbyte
    rw [hlater byte hbyte] at hdelimiter
    contradiction

theorem Stands.occurs_word (hstands : scanner.Stands source) (hrest : scanner.rest = passed ++ later)
    (hrun : IsRun source scanner.offset (scanner.offset + passed.length)) :
    Piece.Occurs source
      { start := scanner.offset, stop := scanner.offset + passed.length, kind := Kind.ofWord passed, text := passed } := by
  have htext : (source.drop scanner.offset).take (scanner.offset + passed.length - scanner.offset) = passed := by
    rw [hstands.drop_append hrest, Nat.add_sub_cancel_left, List.take_left]
  have hoccurs := Piece.Occurs.word hrun (isWordKind_ofWord _)
  rwa [htext] at hoccurs

theorem Stands.passes_word (hstands : scanner.Stands source) (hrest : scanner.rest = passed ++ later)
    (hpassed : passed ≠ []) (hplain : ∀ byte ∈ passed, isDelimiter byte = false)
    (hlater : ∀ byte ∈ later.head?, isDelimiter byte = true) :
    Passes source scanner
      (some { start := scanner.offset, stop := scanner.offset + passed.length, kind := Kind.ofWord passed, text := passed })
      (scanner.skipToken passed.length later) := by
  have hmarker : commentMarker ∉ passed := fun hmem => absurd (hplain commentMarker hmem) (by decide)
  have hline : newline ∉ passed := fun hmem => absurd (hplain newline hmem) (by decide)
  have hrun : IsRun source scanner.offset (scanner.offset + passed.length) :=
    hstands.isRun hrest hpassed hplain hlater
  have hstands' := hstands.skip hrest hline (hstands.comment_begins_after hrest hpassed hmarker) fun _ _ _ => hrun.ends
  exact passes_piece (hstands.occurs_word hrest hrun) rfl rfl hstands'.skipToken rfl rfl

theorem Round.passes {token? : Option Token} (hround : scanner.Round token? scanner')
    (hstands : scanner.Stands source) :
    ∃ piece? : Option Piece, token? = piece?.map (·.token source scanner.index) ∧
      Passes source scanner piece? scanner' := by
  cases hround with
  | blanks hrest hpassed hblank => exact ⟨none, rfl, hstands.passes_blanks hrest hpassed hblank⟩
  | comment hrest hmarker hline hlater => exact ⟨none, rfl, hstands.passes_comment hrest hmarker hline hlater⟩
  | lineEnd hrest => exact ⟨none, rfl, hstands.passes_lineEnd hrest⟩
  | punctuation hrest hkind =>
    have hpasses := hstands.passes_punctuation hrest hkind
    exact ⟨some _, congrArg some (hstands.token_eq (hpasses.start_eq _ rfl)), hpasses⟩
  | word hrest hbytes hplain hlater =>
    have hpasses := hstands.passes_word hrest hbytes hplain hlater
    exact ⟨some _, congrArg some (hstands.token_eq (hpasses.start_eq _ rfl)), hpasses⟩

/-! ### The whole run -/

theorem Stands.tokens_of_rest_eq_nil (hstands : scanner.Stands source) (hrest : scanner.rest = [])
    (hfinished : scanner.finished = false) :
    scanner.offset = source.length ∧ scanner.tokens = [(Piece.endOfInput source).token source scanner.index] := by
  have hoffset : scanner.offset = source.length := by
    have hlength := congrArg List.length hstands.drop_eq
    rw [hrest, List.length_drop, List.length_nil] at hlength
    exact Nat.le_antisymm hstands.offset_le (Nat.le_of_sub_eq_zero hlength)
  refine ⟨hoffset, ?_⟩
  have htoken : scanner.token .endOfInput [] = (Piece.endOfInput source).token source scanner.index :=
    hstands.token_eq (show (Piece.endOfInput source).start = scanner.offset from hoffset.symm)
  rw [tokens, advance_of_rest_eq_nil hrest, tokens, ← htoken]
  simp [hfinished]

/-- By induction on the rounds, with the pieces that begin at the scanner's offset or later. -/
theorem Stands.tokens (hstands : scanner.Stands source) (hfinished : scanner.finished = false) :
    ∃ pieces : List Piece, pieces.Pairwise (fun piece other => piece.start < other.start) ∧
      (∀ piece, piece ∈ pieces ↔ piece.Occurs source ∧ scanner.offset ≤ piece.start) ∧
      scanner.tokens =
        ((pieces ++ [Piece.endOfInput source]).zipIdx scanner.index).map fun (piece, index) =>
          piece.token source index := by
  induction hremaining : scanner.remaining using Nat.strongRecOn generalizing scanner with
  | _ remaining ih =>
    by_cases hrest : scanner.rest = []
    · obtain ⟨hoffset, htokens⟩ := hstands.tokens_of_rest_eq_nil hrest hfinished
      refine ⟨[], .nil, ?_, htokens⟩
      intro piece
      refine ⟨fun hmem => absurd hmem List.not_mem_nil, ?_⟩
      intro ⟨hoccurs, hstart⟩
      have hlength := hoccurs.start_lt_length
      omega
    · obtain ⟨piece?, htoken, hpasses⟩ := (round_advance hrest).passes hstands
      have hfinished' : scanner.advance.2.finished = false := hpasses.finished_eq.trans hfinished
      have hless : scanner.advance.2.remaining < remaining := hremaining ▸ remaining_advance_lt scanner hfinished
      obtain ⟨pieces, hordered, hmem, htokens⟩ := ih _ hless hpasses.stands hfinished' rfl
      refine ⟨piece?.toList ++ pieces, ?_, ?_, ?_⟩
      · apply List.pairwise_append.2
        refine ⟨by cases piece? <;> simp, hordered, ?_⟩
        intro piece hpiece other hother
        have hstart := hpasses.start_eq piece (Option.mem_toList.1 hpiece)
        have hlater := ((hmem other).1 hother).2
        have hoffset := hpasses.offset_lt
        omega
      · intro piece
        rw [List.mem_append, Option.mem_toList, hmem, hpasses.occurs_iff, Option.mem_def]
      · rw [tokens_of_not_finished hfinished, htoken, htokens, hpasses.index_eq]
        cases piece? with
        | none => rfl
        | some piece => rfl

end Scanner

/-- Every token is that of a piece of the source, or of its end, and its index is the one it was given. -/
theorem exists_piece_of_mem_scan {source : List UInt8} {token : Token} (hmem : token ∈ scan source) :
    ∃ piece : Piece, (piece.Occurs source ∨ piece = .endOfInput source) ∧ piece.token source token.index = token := by
  obtain ⟨pieces, _, hpieces, htokens⟩ := (Scanner.stands_start source).tokens rfl
  rw [scan, htokens] at hmem
  obtain ⟨⟨piece, index⟩, hpair, rfl⟩ := List.mem_map.1 hmem
  refine ⟨piece, ?_, rfl⟩
  rcases List.mem_append.1 (List.fst_mem_of_mem_zipIdx hpair) with hpiece | hstop
  · exact .inl ((hpieces piece).1 hpiece).1
  · exact .inr (List.mem_singleton.1 hstop)

/-- Scanning returns the pieces of the source in order, numbered from 0, and the end of input. Every
byte is layout, and then no piece covers it, or there is one piece that covers it. -/
theorem scan_eq_pieces (source : List UInt8) :
    ∃ pieces : List Piece, pieces.Pairwise (fun piece other => piece.start < other.start) ∧
      (∀ piece, piece ∈ pieces ↔ piece.Occurs source) ∧
      (∀ offset < source.length,
        (IsLayout source offset → ∀ piece ∈ pieces, ¬piece.Covers offset) ∧
        (¬IsLayout source offset →
          ∃ piece ∈ pieces, piece.Covers offset ∧ ∀ other ∈ pieces, other.Covers offset → other = piece)) ∧
      scan source =
        (pieces ++ [Piece.endOfInput source]).zipIdx.map fun (piece, index) => piece.token source index := by
  obtain ⟨pieces, hordered, hmem, htokens⟩ := (Scanner.stands_start source).tokens rfl
  have hoccurs (piece : Piece) : piece ∈ pieces ↔ piece.Occurs source :=
    (hmem piece).trans (and_iff_left (Nat.zero_le _))
  refine ⟨pieces, hordered, hoccurs, ?_, htokens⟩
  intro offset hoffset
  constructor
  · intro hlayout piece hpiece hcovers
    exact ((hoccurs piece).1 hpiece).not_isLayout hcovers hlayout
  · intro hlayout
    obtain ⟨piece, hpiece, hcovers⟩ := Piece.exists_occurs_of_not_isLayout hoffset hlayout
    refine ⟨piece, (hoccurs piece).2 hpiece, hcovers, ?_⟩
    intro other hother hcovers'
    exact ((hoccurs other).1 hother).eq_of_covers hpiece hcovers' hcovers

end GrammarCheck
