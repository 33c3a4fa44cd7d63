import GrammarCheck.Proofs.Scanning.Prefix

/-!
# What a scanner counts

A source can be scanned with five counters alone: each round cuts what is left out of the source and finds
the new offset by a difference of lengths. Nothing here takes for granted that a cut is within the source,
that a difference is not negative or that a lexeme begins where there is no layout. A cut beyond the end and
a negative difference give no result, and where no lexeme begins the next byte is taken as an unknown word.
As long as the scanner stands in the source, rounds on its counters are its own rounds.
-/

namespace GrammarCheck

/-- The bytes from an offset on, which is not to be past the end. -/
def cutFrom? (bytes : List UInt8) (offset : Nat) : Option (List UInt8) :=
  if offset ≤ bytes.length then some (bytes.drop offset) else none

/-- A difference that is not to be negative. -/
def difference? (whole part : Nat) : Option Nat :=
  if part ≤ whole then some (whole - part) else none

theorem cutFrom?_eq_some_iff {bytes rest : List UInt8} {offset : Nat} :
    cutFrom? bytes offset = some rest ↔ offset ≤ bytes.length ∧ bytes.drop offset = rest := by
  simp [cutFrom?]

theorem difference?_eq_some_iff {whole part rest : Nat} :
    difference? whole part = some rest ↔ part ≤ whole ∧ whole - part = rest := by
  simp [difference?]

/-- The kind and the text of the lexeme that the bytes begin with, and the bytes after it. -/
def lexeme? (bytes : List UInt8) : Option ((Kind × List UInt8) × List UInt8) :=
  (Lexeme.split? bytes).map fun
    | (.newline, remaining) => ((.endOfLine, []), remaining)
    | (.punctuation kind, remaining) => ((kind, []), remaining)
    | (.word text, remaining) => ((Kind.ofWord text, text), remaining)

/-- Where no lexeme begins, the next byte as an unknown word. -/
def unknownByte? (bytes : List UInt8) : Option ((Kind × List UInt8) × List UInt8) :=
  (cutFrom? bytes 1).map fun remaining => ((.unknown, bytes.take 1), remaining)

/-- The counters of a scanner. -/
structure Counters where
  offset : Nat
  line : Nat
  lineStart : Nat
  index : Nat
  finished : Bool
deriving DecidableEq, Repr

namespace Counters

/-! ### The rounds -/

def start : Counters := { offset := 0, line := 1, lineStart := 0, index := 0, finished := false }

def column? (counters : Counters) : Option Nat :=
  (difference? counters.offset counters.lineStart).map (· + 1)

/-- The counters when these bytes are left of the source. -/
def advance? (source : List UInt8) (counters : Counters) (remaining : List UInt8) : Option Counters :=
  (difference? source.length remaining.length).map fun offset => { counters with offset }

def nextLine (counters : Counters) : Counters :=
  { counters with line := counters.line + 1, lineStart := counters.offset }

/-- A token in the current line, and the counters after it. -/
def emit (counters : Counters) (kind : Kind) (text : List UInt8) (column : Nat) : Token × Counters :=
  ({ kind, text, position := ⟨counters.line, column⟩, index := counters.index },
   { counters with index := counters.index + 1 })

/-- One round: the token that it returns, if any, and the counters after it. -/
def round? (source : List UInt8) (counters : Counters) : Option (Option Token × Counters) := do
  let rest ← cutFrom? source counters.offset
  let column ← counters.column?
  if rest = [] then
    let (token, counters) := emit { counters with finished := true } .endOfInput [] column
    return (some token, counters)
  else
    match splitLayout? rest with
    | some (_, remaining) =>
      let counters ← counters.advance? source remaining
      return (none, counters)
    | none =>
      let ((kind, text), remaining) ← (lexeme? rest).or (unknownByte? rest)
      let counters ← counters.advance? source remaining
      if kind = .endOfLine then return (none, counters.nextLine)
      else
        let (token, counters) := counters.emit kind text column
        return (some token, counters)

/-! ### Calls -/

section Progress

variable {source bytes remaining : List UInt8} {counters later : Counters}

theorem length_of_lexeme? {lexed : Kind × List UInt8} (hlexeme : lexeme? bytes = some (lexed, remaining)) :
    remaining.length < bytes.length := by
  obtain ⟨⟨lexeme, rest⟩, hsplit, hmap⟩ := Option.map_eq_some_iff.1 hlexeme
  have hless := Lexeme.length_of_split? hsplit
  cases lexeme <;> obtain ⟨-, rfl⟩ := Prod.mk.inj hmap <;> exact hless

theorem length_of_unknownByte? {lexed : Kind × List UInt8} (hbyte : unknownByte? bytes = some (lexed, remaining)) :
    remaining.length < bytes.length := by
  obtain ⟨rest, hcut, hmap⟩ := Option.map_eq_some_iff.1 hbyte
  obtain ⟨-, rfl⟩ := Prod.mk.inj hmap
  obtain ⟨hle, rfl⟩ := cutFrom?_eq_some_iff.1 hcut
  rw [List.length_drop]
  omega

/-- Fewer bytes that are left make a greater offset, which is within the source. -/
theorem offset_lt_of_advance? (hcut : cutFrom? source counters.offset = some bytes)
    (hless : remaining.length < bytes.length) (hadvance : counters.advance? source remaining = some later) :
    counters.offset < later.offset ∧ later.offset ≤ source.length := by
  obtain ⟨hle, rfl⟩ := cutFrom?_eq_some_iff.1 hcut
  obtain ⟨offset, hdifference, rfl⟩ := Option.map_eq_some_iff.1 hadvance
  obtain ⟨hpart, rfl⟩ := difference?_eq_some_iff.1 hdifference
  rw [List.length_drop] at hless
  simp only
  omega

/-- A round that returns no token makes the offset greater, whatever the counters are. -/
theorem offset_lt_of_round? (hround : counters.round? source = some (none, later)) :
    counters.offset < later.offset ∧ later.offset ≤ source.length := by
  obtain ⟨rest, hcut, hround⟩ := Option.bind_eq_some_iff.1 hround
  obtain ⟨column, -, hround⟩ := Option.bind_eq_some_iff.1 hround
  split at hround
  · simp at hround
  · split at hround
    · next skipped remaining hsplit =>
      obtain ⟨moved, hadvance, hmoved⟩ := Option.bind_eq_some_iff.1 hround
      obtain ⟨-, rfl⟩ := Prod.mk.inj (Option.some.inj hmoved)
      exact offset_lt_of_advance? hcut (length_of_splitLayout? hsplit) hadvance
    · obtain ⟨⟨⟨kind, text⟩, remaining⟩, hlexed, hround⟩ := Option.bind_eq_some_iff.1 hround
      obtain ⟨moved, hadvance, hmoved⟩ := Option.bind_eq_some_iff.1 hround
      have hless : remaining.length < rest.length := by
        rcases Option.or_eq_some_iff.1 hlexed with hlexeme | ⟨-, hbyte⟩
        · exact length_of_lexeme? hlexeme
        · exact length_of_unknownByte? hbyte
      have hoffset := offset_lt_of_advance? hcut hless hadvance
      split at hmoved
      · obtain ⟨-, rfl⟩ := Prod.mk.inj (Option.some.inj hmoved)
        exact hoffset
      · simp at hmoved

end Progress

/-- The token that a call returns, if any, and the counters after it: rounds up to the first one that returns
a token, and none once the end of input has been returned. -/
def next? (source : List UInt8) (counters : Counters) : Option (Option Token × Counters) :=
  if counters.finished then some (none, counters)
  else
    match _hround : counters.round? source with
    | none => none
    | some (some token, later) => some (some token, later)
    | some (none, later) => later.next? source
termination_by source.length - counters.offset
decreasing_by
  have hoffset := offset_lt_of_round? _hround
  omega

section Unfolding

variable {source : List UInt8} {counters later : Counters}

theorem next?_of_finished (hfinished : counters.finished = true) : counters.next? source = some (none, counters) := by
  rw [next?, if_pos hfinished]

theorem next?_of_some {token : Token} (hopen : counters.finished = false)
    (hround : counters.round? source = some (some token, later)) : counters.next? source = some (some token, later) := by
  rw [next?, if_neg (by simp [hopen])]
  split <;> simp_all

theorem next?_of_none (hopen : counters.finished = false) (hround : counters.round? source = some (none, later)) :
    counters.next? source = later.next? source := by
  rw [next?, if_neg (by simp [hopen])]
  split <;> simp_all

end Unfolding

/-- The tokens that so many calls return, and the counters after them. -/
def calls? (source : List UInt8) : Nat → Option (List Token × Counters)
  | 0 => some ([], start)
  | calls + 1 => do
    let (returned, counters) ← calls? source calls
    let (token?, counters) ← counters.next? source
    return (returned ++ token?.toList, counters)

end Counters

/-! ### What layout and lexemes cover -/

theorem append_of_splitLayout? {bytes skipped remaining : List UInt8}
    (hsplit : splitLayout? bytes = some (skipped, remaining)) : bytes = skipped ++ remaining := by
  cases bytes with
  | nil => simp [splitLayout?] at hsplit
  | cons byte following =>
    simp only [splitLayout?] at hsplit
    split at hsplit
    · obtain ⟨rfl, rfl⟩ := by simpa using hsplit
      simp
    · split at hsplit
      · obtain ⟨rfl, rfl⟩ := by simpa using hsplit
        simp
      · simp at hsplit

/-- What a lexeme covers, by its kind. -/
theorem append_of_split? {bytes remaining : List UInt8} {lexeme : Lexeme}
    (hsplit : Lexeme.split? bytes = some (lexeme, remaining)) :
    (lexeme = .newline ∧ bytes = [newline] ++ remaining) ∨
      (∃ byte kind, lexeme = .punctuation kind ∧ Kind.ofPunctuation? byte = some kind ∧ bytes = [byte] ++ remaining) ∨
      ∃ text, lexeme = .word text ∧ bytes = text ++ remaining := by
  cases bytes with
  | nil => simp [Lexeme.split?] at hsplit
  | cons byte following =>
    simp only [Lexeme.split?] at hsplit
    split at hsplit
    · next hnewline =>
      obtain ⟨rfl, rfl⟩ := by simpa using hsplit
      exact .inl ⟨rfl, by simpa using hnewline⟩
    · split at hsplit
      · next kind hkind =>
        obtain ⟨rfl, rfl⟩ := by simpa using hsplit
        exact .inr (.inl ⟨byte, kind, rfl, hkind, rfl⟩)
      · split at hsplit
        · simp at hsplit
        · obtain ⟨rfl, rfl⟩ := by simpa using hsplit
          exact .inr (.inr ⟨_, rfl, by simp⟩)

/-- Blanks and comments, newlines, punctuation and words begin with all the bytes there are. -/
theorem isSome_lexeme? {bytes : List UInt8} (hbytes : bytes ≠ []) (hlayout : splitLayout? bytes = none) :
    (lexeme? bytes).isSome = true := by
  obtain ⟨byte, following, rfl⟩ := List.exists_cons_of_ne_nil hbytes
  rw [lexeme?, Option.isSome_map, Lexeme.split?]
  split
  · rfl
  · next hnewline =>
    split
    · rfl
    · next hpunctuation =>
      obtain ⟨hblank, hmarker⟩ := Scanner.splitLayout?_eq_none_iff.1 hlayout
      have hdelimiter : isDelimiter byte = false :=
        (isDelimiter_eq_false_iff byte).2 ⟨hblank, by simpa using hnewline, hmarker, hpunctuation⟩
      simp [hdelimiter]

theorem ofPunctuation?_ne_endOfLine {byte : UInt8} {kind : Kind} (hkind : Kind.ofPunctuation? byte = some kind) :
    kind ≠ .endOfLine := by
  rintro rfl
  have hchar := (Kind.ofPunctuation?_eq_some_iff byte .endOfLine).1 hkind
  contradiction

theorem ofWord_ne_endOfLine (bytes : List UInt8) : Kind.ofWord bytes ≠ .endOfLine := by
  rcases Kind.ofWord_cases bytes with hkind | hkind | hkind <;> rw [hkind] <;> decide

/-! ### Rounds on counters are rounds of the scanner -/

namespace Scanner

def counters (scanner : Scanner) : Counters where
  offset := scanner.offset
  line := scanner.line
  lineStart := scanner.lineStart
  index := scanner.index
  finished := scanner.finished

section Rounds

variable {source passed later : List UInt8} {scanner : Scanner}

theorem Stands.lineStart_le (hstands : scanner.Stands source) : scanner.lineStart ≤ scanner.offset := by
  have hcolumn := hstands.column_eq
  have hpositive : 1 ≤ (positionAt source scanner.offset).column := Nat.le_add_right 1 _
  omega

theorem Stands.cutFrom?_eq (hstands : scanner.Stands source) : cutFrom? source scanner.offset = some scanner.rest :=
  cutFrom?_eq_some_iff.2 ⟨hstands.offset_le, hstands.drop_eq⟩

theorem Stands.column?_eq (hstands : scanner.Stands source) :
    scanner.counters.column? = some scanner.position.column := by
  rw [Counters.column?, show difference? scanner.counters.offset scanner.counters.lineStart = _ from
    difference?_eq_some_iff.2 ⟨hstands.lineStart_le, rfl⟩]
  rfl

theorem Stands.advance?_eq (hstands : scanner.Stands source) (hrest : scanner.rest = passed ++ later) :
    scanner.counters.advance? source later = some { scanner.counters with offset := scanner.offset + passed.length } := by
  have hlength := congrArg List.length (hstands.drop_append hrest)
  have hoffset := hstands.add_length_le hrest
  rw [List.length_drop, List.length_append] at hlength
  rw [Counters.advance?, difference?_eq_some_iff.2 ⟨show later.length ≤ source.length by omega,
    show source.length - later.length = scanner.offset + passed.length by omega⟩]
  rfl

/-- The cases are those of a round, also where no lexeme begins. -/
theorem Stands.round?_eq (hstands : scanner.Stands source) :
    scanner.counters.round? source = some (scanner.advance.1, scanner.advance.2.counters) := by
  have hcut : cutFrom? source scanner.counters.offset = some scanner.rest := hstands.cutFrom?_eq
  rw [Counters.round?, hcut, hstands.column?_eq]
  simp only [Option.bind_eq_bind, Option.bind_some]
  cases hrest : scanner.rest with
  | nil =>
    rw [advance_of_rest_eq_nil hrest]
    rfl
  | cons byte following =>
    rw [if_neg (List.cons_ne_nil byte following), advance, hrest]
    dsimp only
    cases hlayout : splitLayout? (byte :: following) with
    | some split =>
      obtain ⟨skipped, remaining⟩ := split
      dsimp only
      rw [hstands.advance?_eq (hrest.trans (append_of_splitLayout? hlayout))]
      rfl
    | none =>
      dsimp only
      cases hsplit : Lexeme.split? (byte :: following) with
      | none =>
        have hbyte : (lexeme? (byte :: following)).or (unknownByte? (byte :: following)) =
            some ((.unknown, [byte]), following) := by
          rw [lexeme?, hsplit, unknownByte?, cutFrom?_eq_some_iff.2 ⟨Nat.le_add_left 1 _, rfl⟩]
          rfl
        have hpassed : scanner.rest = [byte] ++ following := hrest
        rw [hbyte, Option.bind_some, hstands.advance?_eq hpassed]
        rfl
      | some split =>
        obtain ⟨lexeme, remaining⟩ := split
        rw [lexeme?, hsplit]
        obtain ⟨rfl, hpassed⟩ | ⟨byte, kind, rfl, hkind, hpassed⟩ | ⟨text, rfl, hpassed⟩ := append_of_split? hsplit
        · simp only [Option.map_some, Option.some_or, Option.bind_some, hstands.advance?_eq (hrest.trans hpassed)]
          rfl
        · simp only [Option.map_some, Option.some_or, Option.bind_some, hstands.advance?_eq (hrest.trans hpassed),
            ofPunctuation?_ne_endOfLine hkind, if_false]
          rfl
        · simp only [Option.map_some, Option.some_or, Option.bind_some, hstands.advance?_eq (hrest.trans hpassed),
            ofWord_ne_endOfLine, if_false]
          rfl

/-- Whatever a round does, the scanner stands in the source afterwards. -/
theorem Stands.advance (hstands : scanner.Stands source) : scanner.advance.2.Stands source := by
  by_cases hrest : scanner.rest = []
  · rw [advance_of_rest_eq_nil hrest]
    exact ⟨hstands.drop_eq.trans hrest, hstands.offset_le, hstands.line_eq, hstands.column_eq,
      hstands.comment_begins, hstands.run_begins⟩
  · obtain ⟨piece?, -, hpasses⟩ := (round_advance hrest).passes hstands
    exact hpasses.stands

end Rounds

end Scanner

end GrammarCheck
