import GrammarCheck.Proofs.Scanning.Occurrence
import GrammarCheck.Token.Scanner
import Mathlib.Data.List.TakeWhile

/-!
# What a round of the scanner reads

A round passes over the longest run of blanks, comment or word that the bytes begin with, or over one
newline or punctuation byte. `Stands` says where a scanner is in a source. A comment that is read
ends at a newline and a word that is read ends at a byte that ends words, so at the next byte neither
is still open, and a round keeps that.
-/

namespace GrammarCheck

namespace Scanner

/-! ### The rounds -/

/-- A round that does not end the input: the token that it returns and the scanner after it. -/
inductive Round (scanner : Scanner) : Option Token → Scanner → Prop where
  | blanks {passed later : List UInt8} (hrest : scanner.rest = passed ++ later) (hpassed : passed ≠ [])
      (hblank : ∀ byte ∈ passed, isBlank byte = true) : Round scanner none (scanner.skip passed.length later)
  | comment {passed later : List UInt8} (hrest : scanner.rest = passed ++ later)
      (hmarker : passed.head? = some commentMarker) (hline : newline ∉ passed)
      (hlater : ∀ byte ∈ later.head?, byte = newline) : Round scanner none (scanner.skip passed.length later)
  | lineEnd {later : List UInt8} (hrest : scanner.rest = [newline] ++ later) :
      Round scanner none (scanner.skipNewline later)
  | punctuation {byte : UInt8} {kind : Kind} {later : List UInt8} (hrest : scanner.rest = [byte] ++ later)
      (hkind : Kind.ofPunctuation? byte = some kind) :
      Round scanner (some (scanner.token kind [])) (scanner.skipToken 1 later)
  | word {bytes later : List UInt8} (hrest : scanner.rest = bytes ++ later) (hbytes : bytes ≠ [])
      (hplain : ∀ byte ∈ bytes, isDelimiter byte = false) (hlater : ∀ byte ∈ later.head?, isDelimiter byte = true) :
      Round scanner (some (scanner.token (Kind.ofWord bytes) bytes)) (scanner.skipToken bytes.length later)

theorem eq_false_of_mem_head?_dropWhile {holds : UInt8 → Bool} {bytes : List UInt8} {byte : UInt8}
    (hbyte : byte ∈ (bytes.dropWhile holds).head?) : holds byte = false := by
  have hnot := List.head?_dropWhile_not holds bytes
  rw [Option.mem_def.1 hbyte] at hnot
  exact hnot

section Advance

variable {scanner : Scanner} {byte : UInt8} {following : List UInt8}

theorem advance_of_isBlank (hrest : scanner.rest = byte :: following) (hblank : isBlank byte = true) :
    scanner.advance =
      (none, scanner.skip (byte :: following.takeWhile isBlank).length (following.dropWhile isBlank)) := by
  rw [advance, hrest]
  simp only [splitLayout?, hblank, if_true]

theorem advance_of_marker (hrest : scanner.rest = commentMarker :: following) :
    scanner.advance = (none, scanner.skip (commentMarker :: following.takeWhile (· != newline)).length
      (following.dropWhile (· != newline))) := by
  rw [advance, hrest]
  rfl

theorem advance_of_newline (hrest : scanner.rest = newline :: following) :
    scanner.advance = (none, scanner.skipNewline following) := by
  rw [advance, hrest]
  rfl

theorem splitLayout?_eq_none_iff :
    splitLayout? (byte :: following) = none ↔ isBlank byte = false ∧ byte ≠ commentMarker := by
  rw [splitLayout?]
  cases hblank : isBlank byte with
  | true => simp
  | false => by_cases hmarker : byte = commentMarker <;> simp [hmarker]

theorem advance_of_punctuation {kind : Kind} (hrest : scanner.rest = byte :: following)
    (hkind : Kind.ofPunctuation? byte = some kind) :
    scanner.advance = (some (scanner.token kind []), scanner.skipToken 1 following) := by
  have hblank : isBlank byte = false := isBlank_eq_false_of_ofPunctuation? hkind
  have hmarker : byte ≠ commentMarker := by
    rintro rfl
    contradiction
  have hnewline : byte ≠ newline := by
    rintro rfl
    contradiction
  rw [advance, hrest]
  simp only [splitLayout?_eq_none_iff.2 ⟨hblank, hmarker⟩, Lexeme.split?, beq_iff_eq, hnewline, hkind, if_false]

theorem advance_of_word (hrest : scanner.rest = byte :: following) (hdelimiter : isDelimiter byte = false) :
    scanner.advance =
      (some (scanner.token (Kind.ofWord (byte :: following.takeWhile (!isDelimiter ·)))
        (byte :: following.takeWhile (!isDelimiter ·))),
       scanner.skipToken (byte :: following.takeWhile (!isDelimiter ·)).length
        (following.dropWhile (!isDelimiter ·))) := by
  obtain ⟨hblank, hnewline, hmarker, hpunctuation⟩ := (isDelimiter_eq_false_iff byte).1 hdelimiter
  rw [advance, hrest]
  simp only [splitLayout?_eq_none_iff.2 ⟨hblank, hmarker⟩, Lexeme.split?, beq_iff_eq, hnewline, hpunctuation, hdelimiter,
    if_false, Bool.false_eq_true]

/-- The cases are those of the next byte. -/
theorem round_advance (hrest : scanner.rest ≠ []) : scanner.Round scanner.advance.1 scanner.advance.2 := by
  obtain ⟨byte, following, hfollowing⟩ := List.exists_cons_of_ne_nil hrest
  have hsplit (holds : UInt8 → Bool) :
      scanner.rest = (byte :: following.takeWhile holds) ++ following.dropWhile holds := by
    rw [hfollowing, List.cons_append, List.takeWhile_append_dropWhile]
  by_cases hblank : isBlank byte = true
  · rw [advance_of_isBlank hfollowing hblank]
    refine .blanks (hsplit isBlank) (List.cons_ne_nil _ _) ?_
    simp only [List.forall_mem_cons]
    exact ⟨hblank, fun _ hmem => List.mem_takeWhile_imp hmem⟩
  by_cases hmarker : byte = commentMarker
  · subst hmarker
    rw [advance_of_marker hfollowing]
    refine .comment (hsplit (· != newline)) rfl ?_ ?_
    · simp only [List.mem_cons, not_or]
      exact ⟨by decide, fun hmem => by simpa using List.mem_takeWhile_imp hmem⟩
    · intro next hnext
      simpa using eq_false_of_mem_head?_dropWhile hnext
  by_cases hnewline : byte = newline
  · subst hnewline
    rw [advance_of_newline hfollowing]
    exact .lineEnd hfollowing
  cases hpunctuation : Kind.ofPunctuation? byte with
  | some kind =>
    rw [advance_of_punctuation hfollowing hpunctuation]
    exact .punctuation hfollowing hpunctuation
  | none =>
    have hdelimiter : isDelimiter byte = false :=
      (isDelimiter_eq_false_iff byte).2 ⟨Bool.eq_false_iff.2 hblank, hnewline, hmarker, hpunctuation⟩
    rw [advance_of_word hfollowing hdelimiter]
    refine .word (hsplit (!isDelimiter ·)) (List.cons_ne_nil _ _) ?_ ?_
    · simp only [List.forall_mem_cons]
      exact ⟨hdelimiter, fun _ hmem => by simpa using List.mem_takeWhile_imp hmem⟩
    · intro next hnext
      simpa using eq_false_of_mem_head?_dropWhile hnext

theorem tokens_of_not_finished (hfinished : scanner.finished = false) :
    scanner.tokens = scanner.advance.1.toList ++ scanner.advance.2.tokens := by
  rw [tokens, if_neg (by simp [hfinished])]

theorem tokens_of_finished (hfinished : scanner.finished = true) : scanner.tokens = [] := by
  rw [tokens, if_pos hfinished]

theorem advance_of_rest_eq_nil (hrest : scanner.rest = []) :
    scanner.advance =
      (some (scanner.token .endOfInput []), { scanner.skipToken 0 [] with finished := true }) := by
  rw [advance, hrest]

theorem tokens_of_rest_eq_nil (hfinished : scanner.finished = false) (hrest : scanner.rest = []) :
    scanner.tokens = [scanner.token .endOfInput []] := by
  rw [tokens_of_not_finished hfinished, advance_of_rest_eq_nil hrest, tokens_of_finished rfl]
  rfl

end Advance

/-! ### Two scanners side by side -/

/-- Scanners that stay in relation from round to round return tokens that correspond. -/
theorem map_tokens_eq_of_advance {α : Type} {left right : Token → α} {related : Scanner → Scanner → Prop}
    (hfinished : ∀ scanner scanner', related scanner scanner' → scanner'.finished = scanner.finished)
    (hadvance : ∀ scanner scanner', related scanner scanner' → scanner.finished = false →
      scanner'.advance.1.map right = scanner.advance.1.map left ∧ related scanner.advance.2 scanner'.advance.2)
    {scanner scanner' : Scanner} (hrelated : related scanner scanner') :
    scanner'.tokens.map right = scanner.tokens.map left := by
  induction hremaining : scanner.remaining using Nat.strongRecOn generalizing scanner scanner' with
  | _ remaining ih =>
    have hsame := hfinished scanner scanner' hrelated
    cases hover : scanner.finished with
    | true =>
      rw [tokens_of_finished hover, tokens_of_finished (hsame.trans hover), List.map_nil, List.map_nil]
    | false =>
      obtain ⟨htoken, hnext⟩ := hadvance scanner scanner' hrelated hover
      have hless : scanner.advance.2.remaining < remaining := hremaining ▸ remaining_advance_lt scanner hover
      rw [tokens_of_not_finished hover, tokens_of_not_finished (hsame.trans hover), List.map_append, List.map_append,
        ih _ hless hnext rfl, ← Option.toList_map, ← Option.toList_map, htoken]

end Scanner

/-! ### Passing over bytes of a source -/

section Passing

variable {source passed later : List UInt8} {offset : Nat}

theorem drop_add_of_drop_eq (hdrop : source.drop offset = passed ++ later) :
    source.drop (offset + passed.length) = later := by
  rw [← List.drop_drop, hdrop, List.drop_left]

theorem getElem?_add_of_drop_eq (hdrop : source.drop offset = passed ++ later) :
    source[offset + passed.length]? = later.head? := by
  rw [← drop_add_of_drop_eq hdrop, List.head?_drop]

theorem exists_mem_of_drop_eq (hdrop : source.drop offset = passed ++ later) {place : Nat} (hlow : offset ≤ place)
    (hhigh : place < offset + passed.length) : ∃ byte ∈ passed, source[place]? = some byte := by
  obtain ⟨inner, rfl⟩ := Nat.exists_eq_add_of_le hlow
  have hinner : inner < passed.length := by omega
  refine ⟨passed[inner], List.getElem_mem hinner, ?_⟩
  rw [← List.getElem?_drop, hdrop, List.getElem?_append_left hinner, List.getElem?_eq_getElem hinner]

theorem take_add_of_drop_eq (hdrop : source.drop offset = passed ++ later) :
    source.take (offset + passed.length) = source.take offset ++ passed := by
  rw [List.take_add, hdrop, List.take_left]

theorem positionAt_of_not_mem (hdrop : source.drop offset = passed ++ later) (hline : newline ∉ passed) :
    positionAt source (offset + passed.length) =
      { line := (positionAt source offset).line, column := (positionAt source offset).column + passed.length } := by
  have hpasses : ∀ byte ∈ passed.reverse, (byte != newline) = true := by
    intro byte hbyte
    exact bne_iff_ne.2 fun heq => hline (heq ▸ List.mem_reverse.1 hbyte)
  simp only [positionAt, take_add_of_drop_eq hdrop, List.count_append, List.count_eq_zero.2 hline, List.reverse_append,
    List.takeWhile_append_of_pos hpasses, List.length_append, List.length_reverse]
  rw [Position.mk.injEq]
  omega

theorem positionAt_of_newline (hdrop : source.drop offset = [newline] ++ later) :
    positionAt source (offset + 1) = { line := (positionAt source offset).line + 1, column := 1 } := by
  have htake : source.take (offset + 1) = source.take offset ++ [newline] := take_add_of_drop_eq hdrop
  simp only [positionAt, htake, List.count_append, List.count_singleton_self, List.reverse_append, List.reverse_singleton,
    List.singleton_append]
  rw [List.takeWhile_cons_of_neg (by simp), Position.mk.injEq]
  exact ⟨by omega, rfl⟩

/-- Bytes other than markers open no comment, so that a comment after them begins there. -/
theorem Commented.eq_of_not_mem (hdrop : source.drop offset = passed ++ later)
    (hclear : Commented source offset → source[offset]? = some commentMarker) (hpassed : passed ≠ [])
    (hmarker : commentMarker ∉ passed) {place : Nat} (hlow : offset ≤ place)
    (hhigh : place ≤ offset + passed.length) (hcommented : Commented source place) :
    place = offset + passed.length ∧ source[place]? = some commentMarker := by
  obtain ⟨hlength, marker, hle, hmarkerAt, hbetween⟩ := hcommented
  have hinside {inner : Nat} (hlow' : offset ≤ inner) (hhigh' : inner < offset + passed.length) :
      source[inner]? ≠ some commentMarker := by
    obtain ⟨byte, hbyte, hinner⟩ := exists_mem_of_drop_eq hdrop hlow' hhigh'
    rw [hinner]
    exact fun heq => hmarker (Option.some.inj heq ▸ hbyte)
  have hpositive : 0 < passed.length := List.length_pos_iff.2 hpassed
  rcases Nat.lt_or_ge marker offset with hbefore | hafter
  · have hopen : Commented source offset := by
      refine ⟨by omega, marker, Nat.le_of_lt hbefore, hmarkerAt, ?_⟩
      intro between hfrom hto
      exact hbetween between hfrom (Nat.le_trans hto hlow)
    exact absurd (hclear hopen) (hinside (Nat.le_refl _) (by omega))
  · rcases Nat.lt_or_ge marker (offset + passed.length) with hwithin | hbeyond
    · exact absurd hmarkerAt (hinside hafter hwithin)
    · obtain rfl : marker = place := by omega
      exact ⟨by omega, hmarkerAt⟩

theorem commented_of_comment (hdrop : source.drop offset = passed ++ later) (hmarker : passed.head? = some commentMarker)
    (hline : newline ∉ passed) {place : Nat} (hlow : offset ≤ place) (hhigh : place < offset + passed.length) :
    Commented source place := by
  have hinside {inner : Nat} (hlow' : offset ≤ inner) (hhigh' : inner < offset + passed.length) :
      ∃ byte ∈ passed, source[inner]? = some byte := exists_mem_of_drop_eq hdrop hlow' hhigh'
  obtain ⟨byte, _, hplace⟩ := hinside hlow hhigh
  refine ⟨(List.getElem?_eq_some_iff.1 hplace).1, offset, hlow, ?_, ?_⟩
  · rw [← List.head?_drop, hdrop, List.head?_append, hmarker, Option.some_or]
  · intro between hfrom hto
    obtain ⟨byte', hbyte', hbetween⟩ := hinside hfrom (by omega)
    rw [hbetween]
    exact fun heq => hline (Option.some.inj heq ▸ hbyte')

end Passing

end GrammarCheck
