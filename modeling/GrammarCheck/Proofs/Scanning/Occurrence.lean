import GrammarCheck.Proofs.Scanning.Word
import GrammarCheck.Token.Basic

/-!
# Where the tokens of a source stand

What a source says about each of its bytes: whether it is in a comment, whether it is part of a word
and at which place it is. The pieces of a source are its tokens with the bytes that they cover. All
of this looks at the whole source, and nothing reads it from left to right.
-/

namespace GrammarCheck

/-! ### Bytes -/

/-- The byte at the offset is in a comment: a marker stands at or before it on its line. -/
def Commented (source : List UInt8) (offset : Nat) : Prop :=
  offset < source.length ∧ ∃ marker ≤ offset, source[marker]? = some commentMarker ∧
    ∀ between, marker ≤ between → between ≤ offset → source[between]? ≠ some newline

/-- The byte at the offset is part of a word. -/
def Plain (source : List UInt8) (offset : Nat) : Prop :=
  ∃ byte, source[offset]? = some byte ∧ isBlank byte = false ∧ byte ≠ newline ∧ byte ≠ commentMarker ∧
    Kind.ofPunctuation? byte = none ∧ ¬Commented source offset

/-- The bytes from `start` up to `stop` are a word: a run that no neighbour continues. -/
structure IsRun (source : List UInt8) (start stop : Nat) : Prop where
  nonempty : start < stop
  plain : ∀ offset, start ≤ offset → offset < stop → Plain source offset
  begins : ∀ offset, offset + 1 = start → ¬Plain source offset
  ends : ¬Plain source stop

/-- The line and the column of an offset: the newlines before it and the bytes since the last one. -/
def positionAt (source : List UInt8) (offset : Nat) : Position where
  line := 1 + (source.take offset).count newline
  column := 1 + ((source.take offset).reverse.takeWhile (· != newline)).length

/-! ### Pieces -/

/-- The kind of a word by its bytes. Every word has exactly one of the three kinds. -/
structure IsWordKind (bytes : List UInt8) (kind : Kind) : Prop where
  nonTerminal_iff : kind = .nonTerminal ↔ Spelled Unicode.isLowercaseLetter bytes
  terminal_iff : kind = .terminal ↔ Spelled Unicode.isUppercaseLetter bytes
  unknown_iff : kind = .unknown ↔
    ¬Spelled Unicode.isLowercaseLetter bytes ∧ ¬Spelled Unicode.isUppercaseLetter bytes

/-- A token of a source with the bytes that it covers, from `start` up to `stop`. -/
structure Piece where
  start : Nat
  stop : Nat
  kind : Kind
  text : List UInt8

namespace Piece

def Covers (piece : Piece) (offset : Nat) : Prop := piece.start ≤ offset ∧ offset < piece.stop

/-- The piece that covers nothing, at the end of a source. -/
def endOfInput (source : List UInt8) : Piece :=
  { start := source.length, stop := source.length, kind := .endOfInput, text := [] }

/-- The token of a piece, when so many tokens come before it. -/
def token (source : List UInt8) (piece : Piece) (index : Nat) : Token :=
  { kind := piece.kind, text := piece.text, position := positionAt source piece.start, index }

/-- The pieces that stand in a source. -/
inductive Occurs (source : List UInt8) : Piece → Prop where
  | punctuation {offset : Nat} {byte : UInt8} {kind : Kind} (hbyte : source[offset]? = some byte)
      (hkind : Kind.ofPunctuation? byte = some kind) (huncommented : ¬Commented source offset) :
      Occurs source { start := offset, stop := offset + 1, kind, text := [] }
  | word {start stop : Nat} {kind : Kind} (hrun : IsRun source start stop)
      (hkind : IsWordKind ((source.drop start).take (stop - start)) kind) :
      Occurs source { start, stop, kind, text := (source.drop start).take (stop - start) }

end Piece

/-! ### Facts about bytes -/

variable {source : List UInt8}

theorem ofPunctuation?_eq_none_of_isBlank {byte : UInt8} (hblank : isBlank byte = true) :
    Kind.ofPunctuation? byte = none := by
  simp only [isBlank, Bool.or_eq_true, beq_iff_eq] at hblank
  rcases hblank with (((rfl | rfl) | rfl) | rfl) | rfl <;> rfl

theorem isDelimiter_of_isBlank {byte : UInt8} (hblank : isBlank byte = true) : isDelimiter byte = true := by
  simp [isDelimiter, hblank]

theorem isDelimiter_of_ofPunctuation? {byte : UInt8} {kind : Kind} (hkind : Kind.ofPunctuation? byte = some kind) :
    isDelimiter byte = true := by
  simp [isDelimiter, hkind]

theorem isBlank_eq_false_of_ofPunctuation? {byte : UInt8} {kind : Kind} (hkind : Kind.ofPunctuation? byte = some kind) :
    isBlank byte = false := by
  apply Bool.eq_false_iff.2
  intro hblank
  rw [ofPunctuation?_eq_none_of_isBlank hblank] at hkind
  contradiction

theorem isDelimiter_eq_false_iff (byte : UInt8) :
    isDelimiter byte = false ↔
      isBlank byte = false ∧ byte ≠ newline ∧ byte ≠ commentMarker ∧ Kind.ofPunctuation? byte = none := by
  simp only [isDelimiter, Bool.or_eq_false_iff, beq_eq_false_iff_ne, Option.isSome_eq_false_iff, Option.isNone_iff_eq_none,
    and_assoc, ne_eq]

theorem Kind.toNat_lt_of_punctuation? {kind : Kind} {c : Char} (hkind : kind.punctuation? = some c) :
    c.toNat < 0x80 := by
  rcases kind with _ | ⟨_ | _ | _⟩ | ⟨_ | _ | _⟩ | _ | _ | _ | _ | _ | _ | _ <;> cases hkind <;> decide

theorem toNat_lt_of_isDelimiter {byte : UInt8} (hdelimiter : isDelimiter byte = true) : byte.toNat < 0x80 := by
  simp only [isDelimiter, isBlank, Bool.or_eq_true, beq_iff_eq, Option.isSome_iff_exists] at hdelimiter
  rcases hdelimiter with ((((((rfl | rfl) | rfl) | rfl) | rfl) | rfl) | rfl) | ⟨kind, hkind⟩
  case inr =>
    have hascii := Kind.toNat_lt_of_punctuation? ((Kind.ofPunctuation?_eq_some_iff byte kind).1 hkind)
    have hvalid : byte.toNat.isValidChar := .inl (Nat.lt_trans byte.toNat_lt (by decide))
    rwa [Char.toNat, Utf8.toNat_ofNat_of_isValidChar hvalid] at hascii
  all_goals decide

theorem isDelimiter_eq_false_of_ge {byte : UInt8} (hhigh : 0x80 ≤ byte.toNat) : isDelimiter byte = false := by
  apply Bool.eq_false_iff.2
  intro hdelimiter
  exact Nat.not_lt_of_le hhigh (toNat_lt_of_isDelimiter hdelimiter)

theorem Plain.exists_byte {offset : Nat} (hplain : Plain source offset) :
    ∃ byte, source[offset]? = some byte ∧ isDelimiter byte = false := by
  obtain ⟨byte, hbyte, hblank, hnewline, hmarker, hpunctuation, _⟩ := hplain
  exact ⟨byte, hbyte, (isDelimiter_eq_false_iff byte).2 ⟨hblank, hnewline, hmarker, hpunctuation⟩⟩

theorem plain_of_isDelimiter_eq_false {offset : Nat} {byte : UInt8} (hbyte : source[offset]? = some byte)
    (hdelimiter : isDelimiter byte = false) (huncommented : ¬Commented source offset) : Plain source offset := by
  obtain ⟨hblank, hnewline, hmarker, hpunctuation⟩ := (isDelimiter_eq_false_iff byte).1 hdelimiter
  exact ⟨byte, hbyte, hblank, hnewline, hmarker, hpunctuation, huncommented⟩

theorem not_plain_of_isDelimiter {offset : Nat} {byte : UInt8} (hbyte : source[offset]? = some byte)
    (hdelimiter : isDelimiter byte = true) : ¬Plain source offset := by
  intro hplain
  obtain ⟨byte', hbyte', hdelimiter'⟩ := hplain.exists_byte
  rw [hbyte, Option.some.injEq] at hbyte'
  rw [← hbyte', hdelimiter] at hdelimiter'
  contradiction

theorem not_plain_of_length_le {offset : Nat} (hlength : source.length ≤ offset) : ¬Plain source offset := by
  intro hplain
  obtain ⟨byte, hbyte, _⟩ := hplain.exists_byte
  rw [List.getElem?_eq_none hlength] at hbyte
  contradiction

theorem Plain.not_commented {offset : Nat} (hplain : Plain source offset) : ¬Commented source offset := by
  obtain ⟨_, _, _, _, _, _, huncommented⟩ := hplain
  exact huncommented

theorem isWordKind_ofWord (bytes : List UInt8) : IsWordKind bytes (Kind.ofWord bytes) := by
  refine ⟨Kind.ofWord_eq_nonTerminal_iff bytes, Kind.ofWord_eq_terminal_iff bytes, ?_⟩
  rw [← Kind.ofWord_eq_nonTerminal_iff, ← Kind.ofWord_eq_terminal_iff]
  rcases Kind.ofWord_cases bytes with hkind | hkind | hkind <;> simp [hkind]

theorem IsWordKind.eq_ofWord {bytes : List UInt8} {kind : Kind} (hkind : IsWordKind bytes kind) :
    kind = Kind.ofWord bytes := by
  have hword := isWordKind_ofWord bytes
  rcases Kind.ofWord_cases bytes with heq | heq | heq
  · rw [heq, hkind.nonTerminal_iff, ← hword.nonTerminal_iff, heq]
  · rw [heq, hkind.terminal_iff, ← hword.terminal_iff, heq]
  · rw [heq, hkind.unknown_iff, ← hword.unknown_iff, heq]

/-! ### Runs -/

/-- A run ends at the first byte after its start that is not part of a word. -/
theorem IsRun.stop_eq {start stop stop' : Nat} (hrun : IsRun source start stop) (hrun' : IsRun source start stop') :
    stop = stop' := by
  rcases Nat.lt_trichotomy stop stop' with hlt | heq | hgt
  · exact absurd (hrun'.plain stop (Nat.le_of_lt hrun.nonempty) hlt) hrun.ends
  · exact heq
  · exact absurd (hrun.plain stop' (Nat.le_of_lt hrun'.nonempty) hgt) hrun'.ends

/-- No run begins inside another one. -/
theorem IsRun.start_eq {start stop start' stop' : Nat} (hrun : IsRun source start stop)
    (hrun' : IsRun source start' stop') (hstart : start ≤ start') (hstop : start' < stop) : start' = start := by
  rcases Nat.eq_or_lt_of_le hstart with heq | hlt
  · exact heq.symm
  · have hbefore : start' - 1 + 1 = start' := by omega
    exact absurd (hrun.plain (start' - 1) (by omega) (by omega)) (hrun'.begins _ hbefore)

theorem exists_run_start {offset : Nat} (hplain : Plain source offset) :
    ∃ start ≤ offset, (∀ between, start ≤ between → between ≤ offset → Plain source between) ∧
      ∀ before, before + 1 = start → ¬Plain source before := by
  induction offset with
  | zero =>
    refine ⟨0, Nat.le_refl 0, ?_, by simp⟩
    intro between _ hbetween
    rwa [Nat.le_zero.1 hbetween]
  | succ offset ih =>
    by_cases hbefore : Plain source offset
    · obtain ⟨start, hstart, hrun, hbegins⟩ := ih hbefore
      refine ⟨start, Nat.le_succ_of_le hstart, ?_, hbegins⟩
      intro between hlow hhigh
      rcases Nat.le_succ_iff.1 hhigh with hle | rfl
      · exact hrun between hlow hle
      · exact hplain
    · refine ⟨offset + 1, Nat.le_refl _, ?_, ?_⟩
      · intro between hlow hhigh
        rwa [Nat.le_antisymm hhigh hlow]
      · intro before heq
        rwa [Nat.succ.inj heq]

/-- By induction on the bytes that follow, as the end of the source is no part of a word. -/
theorem exists_run_stop {offset : Nat} (hplain : Plain source offset) :
    ∃ stop, offset < stop ∧ (∀ between, offset ≤ between → between < stop → Plain source between) ∧
      ¬Plain source stop := by
  induction hlength : source.length - offset generalizing offset with
  | zero => exact absurd hplain (not_plain_of_length_le (by omega))
  | succ length ih =>
    by_cases hafter : Plain source (offset + 1)
    · obtain ⟨stop, hstop, hrun, hends⟩ := ih hafter (by omega)
      refine ⟨stop, by omega, ?_, hends⟩
      intro between hlow hhigh
      rcases Nat.eq_or_lt_of_le hlow with rfl | hlt
      · exact hplain
      · exact hrun between hlt hhigh
    · refine ⟨offset + 1, Nat.lt_succ_self offset, ?_, hafter⟩
      intro between hlow hhigh
      rwa [Nat.le_antisymm (Nat.le_of_lt_succ hhigh) hlow]

theorem exists_run {offset : Nat} (hplain : Plain source offset) :
    ∃ start stop, IsRun source start stop ∧ start ≤ offset ∧ offset < stop := by
  obtain ⟨start, hstart, hleft, hbegins⟩ := exists_run_start hplain
  obtain ⟨stop, hstop, hright, hends⟩ := exists_run_stop hplain
  refine ⟨start, stop, ⟨Nat.lt_of_le_of_lt hstart hstop, ?_, hbegins, hends⟩, hstart, hstop⟩
  intro between hlow hhigh
  rcases Nat.le_total between offset with hle | hge
  · exact hleft between hlow hle
  · exact hright between hge hhigh

/-! ### What pieces cover -/

def IsLayout (source : List UInt8) (offset : Nat) : Prop :=
  Commented source offset ∨ ∃ byte, source[offset]? = some byte ∧ (isBlank byte = true ∨ byte = newline)

theorem commented_of_marker {offset : Nat} (hmarker : source[offset]? = some commentMarker) :
    Commented source offset := by
  refine ⟨(List.getElem?_eq_some_iff.1 hmarker).1, offset, Nat.le_refl _, hmarker, ?_⟩
  intro between hlow hhigh
  rw [Nat.le_antisymm hhigh hlow, hmarker]
  decide

theorem not_commented_of_lineEnd {offset : Nat} (hlineEnd : ∀ byte ∈ source[offset]?, byte = newline) :
    ¬Commented source offset := by
  intro ⟨hlength, marker, hle, _, hbetween⟩
  have hat : source[offset]? = some source[offset] := List.getElem?_eq_getElem hlength
  apply hbetween offset hle (Nat.le_refl _)
  rw [hat, hlineEnd _ hat]

theorem Plain.not_isLayout {offset : Nat} (hplain : Plain source offset) : ¬IsLayout source offset := by
  obtain ⟨byte, hbyte, hblank, hnewline, _, _, huncommented⟩ := hplain
  intro hlayout
  rcases hlayout with hcommented | ⟨byte', hbyte', hlayout⟩
  · exact huncommented hcommented
  · rw [hbyte, Option.some.injEq] at hbyte'
    subst hbyte'
    rcases hlayout with hblank' | hnewline'
    · rw [hblank] at hblank'
      contradiction
    · exact hnewline hnewline'

theorem not_isLayout_of_punctuation {offset : Nat} {byte : UInt8} {kind : Kind}
    (hbyte : source[offset]? = some byte) (hkind : Kind.ofPunctuation? byte = some kind)
    (huncommented : ¬Commented source offset) : ¬IsLayout source offset := by
  intro hlayout
  rcases hlayout with hcommented | ⟨byte', hbyte', hlayout⟩
  · exact huncommented hcommented
  · rw [hbyte, Option.some.injEq] at hbyte'
    subst hbyte'
    rcases hlayout with hblank | rfl
    · rw [ofPunctuation?_eq_none_of_isBlank hblank] at hkind
      contradiction
    · contradiction

namespace Piece

variable {piece other : Piece} {offset : Nat}

theorem Occurs.covers_start (hoccurs : piece.Occurs source) : piece.Covers piece.start := by
  cases hoccurs with
  | punctuation => exact ⟨Nat.le_refl _, Nat.lt_succ_self _⟩
  | word hrun => exact ⟨Nat.le_refl _, hrun.nonempty⟩

theorem Occurs.not_isLayout (hoccurs : piece.Occurs source) (hcovers : piece.Covers offset) :
    ¬IsLayout source offset := by
  cases hoccurs with
  | punctuation hbyte hkind huncommented =>
    rw [Nat.le_antisymm (Nat.le_of_lt_succ hcovers.2) hcovers.1]
    exact not_isLayout_of_punctuation hbyte hkind huncommented
  | word hrun => exact (hrun.plain offset hcovers.1 hcovers.2).not_isLayout

theorem Occurs.start_lt_length (hoccurs : piece.Occurs source) : piece.start < source.length := by
  cases hoccurs with
  | punctuation hbyte => exact (List.getElem?_eq_some_iff.1 hbyte).1
  | word hrun =>
    apply Nat.lt_of_not_le
    intro hlength
    exact not_plain_of_length_le hlength (hrun.plain _ (Nat.le_refl _) hrun.nonempty)

theorem Occurs.eq_of_covers (hoccurs : piece.Occurs source) (hother : other.Occurs source)
    (hcovers : piece.Covers offset) (hcovers' : other.Covers offset) : piece = other := by
  have hmixed {start stop place : Nat} {byte : UInt8} {kind : Kind} (hrun : IsRun source start stop)
      (hbyte : source[place]? = some byte) (hkind : Kind.ofPunctuation? byte = some kind)
      (hlow : start ≤ place) (hhigh : place < stop) : False := by
    obtain ⟨byte', hbyte', _, _, _, hnone, _⟩ := hrun.plain place hlow hhigh
    rw [hbyte, Option.some.injEq] at hbyte'
    rw [hbyte', hnone] at hkind
    contradiction
  cases hoccurs with
  | @punctuation place byte kind hbyte hkind huncommented =>
    obtain rfl : offset = place := Nat.le_antisymm (Nat.le_of_lt_succ hcovers.2) hcovers.1
    cases hother with
    | @punctuation place' byte' kind' hbyte' hkind' huncommented' =>
      obtain rfl : offset = place' := Nat.le_antisymm (Nat.le_of_lt_succ hcovers'.2) hcovers'.1
      rw [hbyte, Option.some.injEq] at hbyte'
      rw [hbyte', hkind', Option.some.injEq] at hkind
      rw [hkind]
    | word hrun => exact (hmixed hrun hbyte hkind hcovers'.1 hcovers'.2).elim
  | @word start stop kind hrun hkind =>
    cases hother with
    | @punctuation place' byte' kind' hbyte' hkind' huncommented' =>
      obtain rfl : offset = place' := Nat.le_antisymm (Nat.le_of_lt_succ hcovers'.2) hcovers'.1
      exact (hmixed hrun hbyte' hkind' hcovers.1 hcovers.2).elim
    | @word start' stop' kind' hrun' hkind' =>
      have hstart : start = start' := by
        rcases Nat.le_total start start' with hle | hle
        · exact (hrun.start_eq hrun' hle (Nat.lt_of_le_of_lt hcovers'.1 hcovers.2)).symm
        · exact hrun'.start_eq hrun hle (Nat.lt_of_le_of_lt hcovers.1 hcovers'.2)
      subst hstart
      have hstop : stop = stop' := hrun.stop_eq hrun'
      subst hstop
      rw [hkind.eq_ofWord, hkind'.eq_ofWord]

/-- Every byte is layout or covered. -/
theorem exists_occurs_of_not_isLayout (hoffset : offset < source.length) (hlayout : ¬IsLayout source offset) :
    ∃ piece : Piece, piece.Occurs source ∧ piece.Covers offset := by
  obtain ⟨byte, hbyte⟩ : ∃ byte, source[offset]? = some byte := ⟨_, List.getElem?_eq_getElem hoffset⟩
  have huncommented : ¬Commented source offset := fun hcommented => hlayout (.inl hcommented)
  cases hpunctuation : Kind.ofPunctuation? byte with
  | some kind => exact ⟨_, .punctuation hbyte hpunctuation huncommented, Nat.le_refl _, Nat.lt_succ_self _⟩
  | none =>
    have hblank : isBlank byte = false :=
      Bool.eq_false_iff.2 fun hblank => hlayout (.inr ⟨byte, hbyte, .inl hblank⟩)
    have hnewline : byte ≠ newline := fun hnewline => hlayout (.inr ⟨byte, hbyte, .inr hnewline⟩)
    have hmarker : byte ≠ commentMarker := by
      rintro rfl
      exact huncommented (commented_of_marker hbyte)
    have hplain : Plain source offset := ⟨byte, hbyte, hblank, hnewline, hmarker, hpunctuation, huncommented⟩
    obtain ⟨start, stop, hrun, hlow, hhigh⟩ := exists_run hplain
    exact ⟨_, .word hrun (isWordKind_ofWord _), hlow, hhigh⟩

/-! ### Pieces from an offset on -/

theorem occurs_iff_of_isLayout {stop : Nat} (hstop : offset ≤ stop)
    (hlayout : ∀ place, offset ≤ place → place < stop → IsLayout source place) (piece : Piece) :
    piece.Occurs source ∧ offset ≤ piece.start ↔ piece.Occurs source ∧ stop ≤ piece.start := by
  constructor
  · intro ⟨hoccurs, hstart⟩
    refine ⟨hoccurs, Nat.le_of_not_lt ?_⟩
    intro hbefore
    exact hoccurs.not_isLayout hoccurs.covers_start (hlayout piece.start hstart hbefore)
  · intro ⟨hoccurs, hstart⟩
    exact ⟨hoccurs, Nat.le_trans hstop hstart⟩

theorem Occurs.occurs_iff (hoccurs : piece.Occurs source) (other : Piece) :
    other.Occurs source ∧ piece.start ≤ other.start ↔
      other = piece ∨ other.Occurs source ∧ piece.stop ≤ other.start := by
  have hcovers : piece.Covers piece.start := hoccurs.covers_start
  constructor
  · intro ⟨hother, hstart⟩
    rcases Nat.lt_or_ge other.start piece.stop with hinside | hafter
    · exact .inl (hother.eq_of_covers hoccurs hother.covers_start ⟨hstart, hinside⟩)
    · exact .inr ⟨hother, hafter⟩
  · intro hcases
    rcases hcases with rfl | ⟨hother, hstop⟩
    · exact ⟨hoccurs, Nat.le_refl _⟩
    · exact ⟨hother, Nat.le_trans (Nat.le_of_lt hcovers.2) hstop⟩

end Piece

end GrammarCheck
