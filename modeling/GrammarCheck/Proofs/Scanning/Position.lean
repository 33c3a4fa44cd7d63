import GrammarCheck.Proofs.Printing.Origin
import GrammarCheck.Proofs.Scanning.Exactness

/-!
# Places in a source

A position names one place in a source at most, as later bytes are on a later line or further on in the
same one. Every token has the position of the place where it begins. What is said about a token is true
of that place: its description is that of what begins there, and a name is a whole word there.
-/

namespace GrammarCheck

/-- The byte at the offset, or the end of the source, has the position. -/
def HasPosition (source : List UInt8) (offset : Nat) (position : Position) : Prop :=
  offset ≤ source.length ∧ positionAt source offset = position

/-- The bytes from the offset on are a whole word, and are those of the name. -/
def WordAt (source : List UInt8) (offset : Nat) (name : String) : Prop :=
  ∃ stop, IsRun source offset stop ∧ (source.drop offset).take (stop - offset) = Utf8.encode name

/-- The description is that of the token that begins at the offset, or of the end of the source. -/
def DescribedAt (source : List UInt8) (offset : Nat) (description : String) : Prop :=
  if description = Kind.endOfInput.label then offset = source.length
  else ∃ (piece : Piece) (index : Nat), piece.Occurs source ∧ piece.start = offset ∧
    piece.token source index ∈ scan source ∧ (piece.token source index).description = description

/-- The token is a word of the source that has the bytes of the name and stands at its position. -/
structure Token.Spells (token : Token) (source : List UInt8) (name : String) : Prop where
  mem_scan : token ∈ scan source
  text_eq : token.text = Utf8.encode name
  exists_wordAt : ∃ offset, HasPosition source offset token.position ∧ WordAt source offset name

variable {source : List UInt8}

/-! ### Positions -/

theorem drop_eq_take_append_drop (source : List UInt8) {offset offset' : Nat} (hle : offset ≤ offset') :
    source.drop offset = (source.drop offset).take (offset' - offset) ++ source.drop offset' := by
  obtain ⟨length, rfl⟩ := Nat.exists_eq_add_of_le hle
  rw [Nat.add_sub_cancel_left, ← List.drop_drop, List.take_append_drop]

theorem line_positionAt_mono {offset offset' : Nat} (hle : offset ≤ offset') :
    (positionAt source offset).line ≤ (positionAt source offset').line :=
  Nat.add_le_add_left ((List.take_sublist_take_left hle).count_le newline) 1

/-- Either a newline lies between the two, or the second one is further on in the line of the first one. -/
theorem positionAt_ne_of_lt {offset offset' : Nat} (hlt : offset < offset') (hlength : offset' ≤ source.length) :
    positionAt source offset ≠ positionAt source offset' := by
  have hdrop := drop_eq_take_append_drop source (Nat.le_of_lt hlt)
  have hpassed : ((source.drop offset).take (offset' - offset)).length = offset' - offset := by
    rw [List.length_take, List.length_drop]
    omega
  have hoffset : offset + (offset' - offset) = offset' := Nat.add_sub_of_le (Nat.le_of_lt hlt)
  generalize (source.drop offset).take (offset' - offset) = passed at hdrop hpassed
  by_cases hline : newline ∈ passed
  · have htake := take_add_of_drop_eq hdrop
    rw [hpassed, hoffset] at htake
    have hcount : 0 < passed.count newline := List.count_pos_iff.2 hline
    intro heq
    have hlines := congrArg Position.line heq
    simp only [positionAt, htake, List.count_append] at hlines
    omega
  · have hposition := positionAt_of_not_mem hdrop hline
    rw [hpassed, hoffset] at hposition
    intro heq
    have hcolumns := congrArg Position.column (heq.trans hposition)
    simp only at hcolumns
    omega

/-- A position names one place at most. -/
theorem HasPosition.offset_eq {offset offset' : Nat} {position : Position} (hposition : HasPosition source offset position)
    (hposition' : HasPosition source offset' position) : offset = offset' := by
  have hsame := hposition.2.trans hposition'.2.symm
  rcases Nat.lt_trichotomy offset offset' with hlt | heq | hgt
  · exact absurd hsame (positionAt_ne_of_lt hlt hposition'.1)
  · exact heq
  · exact absurd hsame.symm (positionAt_ne_of_lt hgt hposition.1)

/-! ### Tokens and their places -/

theorem Piece.hasPosition {piece : Piece} (hpiece : piece.Occurs source ∨ piece = .endOfInput source) (index : Nat) :
    HasPosition source piece.start (piece.token source index).position := by
  refine ⟨?_, rfl⟩
  rcases hpiece with hoccurs | rfl
  · exact Nat.le_of_lt hoccurs.start_lt_length
  · exact Nat.le_refl _

/-- The lines of tokens never go back. -/
theorem pairwise_line_scan (source : List UInt8) : (scan source).Pairwise (·.line ≤ ·.line) := by
  obtain ⟨pieces, hordered, hpieces, htokens⟩ := (Scanner.stands_start source).tokens rfl
  have hall : (pieces ++ [Piece.endOfInput source]).Pairwise (·.start ≤ ·.start) := by
    refine List.pairwise_append.2 ⟨hordered.imp Nat.le_of_lt, List.pairwise_singleton _ _, ?_⟩
    intro piece hpiece stop hstop
    rw [List.mem_singleton.1 hstop]
    exact Nat.le_of_lt ((hpieces piece).1 hpiece).1.start_lt_length
  rw [← List.zipIdx_map_fst (Scanner.start source).index (pieces ++ [Piece.endOfInput source]), List.pairwise_map] at hall
  rw [scan, htokens, List.pairwise_map]
  exact hall.imp line_positionAt_mono

/-! ### Descriptions -/

theorem Token.description_of_nil {token : Token} (htext : token.text = []) : token.description = token.kind.label := by
  rw [description, htext]
  rfl

/-- A space stands between the kind and the text. -/
theorem Token.description_ne_of_text {token : Token} (htext : token.text ≠ []) :
    token.description ≠ Kind.endOfInput.label := by
  have hspace : ' ' ∈ token.description.toList := by
    rw [description, if_neg (by simpa using htext)]
    simp [toString, String.toList_append]
  intro heq
  rw [heq] at hspace
  exact absurd hspace (by decide)

theorem Piece.Occurs.description_ne {piece : Piece} (hoccurs : piece.Occurs source) (index : Nat) :
    (piece.token source index).description ≠ Kind.endOfInput.label := by
  cases hoccurs with
  | @punctuation offset byte kind _ hkind _ =>
    rw [Token.description_of_nil rfl]
    have hchar := (Kind.ofPunctuation?_eq_some_iff byte kind).1 hkind
    change kind.label ≠ _
    rcases kind with _ | ⟨_ | _ | _⟩ | ⟨_ | _ | _⟩ | _ | _ | _ | _ | _ | _ | _ <;>
      first | contradiction | decide
  | word hrun _ => exact Token.description_ne_of_text hrun.text_ne_nil

theorem exists_describedAt_of_mem_scan {token : Token} (hmem : token ∈ scan source) :
    ∃ offset, HasPosition source offset token.position ∧ DescribedAt source offset token.description := by
  obtain ⟨piece, hpiece, htoken⟩ := exists_piece_of_mem_scan hmem
  have hposition := Piece.hasPosition hpiece token.index
  rw [htoken] at hposition
  refine ⟨piece.start, hposition, ?_⟩
  rcases hpiece with hoccurs | rfl
  · have hdescription := hoccurs.description_ne token.index
    rw [htoken] at hdescription
    rw [DescribedAt, if_neg hdescription]
    exact ⟨piece, token.index, hoccurs, rfl, htoken.symm ▸ hmem, by rw [htoken]⟩
  · have hdescription : token.description = Kind.endOfInput.label := htoken ▸ rfl
    rw [DescribedAt, if_pos hdescription]
    rfl

/-! ### Names -/

theorem Token.spells_of_mem_scan {token : Token} (hmem : token ∈ scan source) (hkind : token.kind = .nonTerminal) :
    token.Spells source token.spelling := by
  have hword := (isScanned_of_mem_scan hmem).isWord (.inl hkind)
  have htext : token.text = Utf8.encode token.spelling := (hword.encode_decodeLossy (.inl hkind)).symm
  obtain ⟨piece, hpiece, htoken⟩ := exists_piece_of_mem_scan hmem
  have hposition := Piece.hasPosition hpiece token.index
  rw [htoken] at hposition
  refine ⟨hmem, htext, piece.start, hposition, ?_⟩
  have hpieceKind : piece.kind = .nonTerminal := (congrArg Token.kind htoken).trans hkind
  have hpieceText : piece.text = Utf8.encode token.spelling := (congrArg Token.text htoken).trans htext
  rcases hpiece with hoccurs | rfl
  · cases hoccurs with
    | @punctuation offset byte kind _ hkind' _ =>
      obtain rfl : kind = .nonTerminal := hpieceKind
      have hchar := (Kind.ofPunctuation?_eq_some_iff byte _).1 hkind'
      contradiction
    | @word start stop kind hrun _ => exact ⟨stop, hrun, hpieceText⟩
  · contradiction

end GrammarCheck
