import GrammarCheck.Token.Basic
import GrammarCheck.Token.Lexeme
/-!
# Scanning

A scanner holds what it has not read yet and the counters that give tokens their positions. Each
round of it reads layout or one lexeme. The last token is the only one that ends the input.
-/

namespace GrammarCheck

/-- A source that is read up to some byte. -/
structure Scanner where
  rest : List UInt8
  offset : Nat
  /-- The current line, from 1. -/
  line : Nat
  /-- The offset at which the current line begins. -/
  lineStart : Nat
  index : Nat
  /-- Whether the end of input has been returned. -/
  finished : Bool
deriving DecidableEq, Repr

namespace Scanner

/-- The scanner at the beginning of a source. -/
def start (source : List UInt8) : Scanner :=
  { rest := source, offset := 0, line := 1, lineStart := 0, index := 0, finished := false }

def position (scanner : Scanner) : Position :=
  { line := scanner.line, column := scanner.offset - scanner.lineStart + 1 }

def token (scanner : Scanner) (kind : Kind) (text : List UInt8) : Token :=
  { kind, text, position := scanner.position, index := scanner.index }

def skip (scanner : Scanner) (length : Nat) (rest : List UInt8) : Scanner :=
  { scanner with rest, offset := scanner.offset + length }

def skipNewline (scanner : Scanner) (rest : List UInt8) : Scanner :=
  { scanner with
    rest, offset := scanner.offset + 1, line := scanner.line + 1, lineStart := scanner.offset + 1 }

def skipToken (scanner : Scanner) (length : Nat) (rest : List UInt8) : Scanner :=
  { scanner with rest, offset := scanner.offset + length, index := scanner.index + 1 }

/-- One round: the token it returns, if any, and the scanner after it. Every byte that is not layout
begins a lexeme, so the one-byte token of the last case is never returned; it makes each round pass
over a byte whatever the lexemes are. -/
def advance (scanner : Scanner) : Option Token × Scanner :=
  match scanner.rest with
  | [] => (some (scanner.token .endOfInput []), { scanner.skipToken 0 [] with finished := true })
  | byte :: following =>
    match splitLayout? (byte :: following) with
    | some (skipped, rest) => (none, scanner.skip skipped.length rest)
    | none =>
      match Lexeme.split? (byte :: following) with
      | some (.newline, rest) => (none, scanner.skipNewline rest)
      | some (.punctuation kind, rest) => (some (scanner.token kind []), scanner.skipToken 1 rest)
      | some (.word bytes, rest) =>
        (some (scanner.token (Kind.ofWord bytes) bytes), scanner.skipToken bytes.length rest)
      | none => (some (scanner.token .unknown [byte]), scanner.skipToken 1 following)

/-- The rounds left at most, and none once the end of input has been returned. -/
def remaining (scanner : Scanner) : Nat :=
  if scanner.finished then 0 else scanner.rest.length + 1

theorem remaining_advance_lt (scanner : Scanner) (hfinished : scanner.finished = false) :
    scanner.advance.2.remaining < scanner.remaining := by
  unfold advance
  split
  · simp [remaining, hfinished]
  · next byte following hrest =>
    split
    · next skipped rest hsplit =>
      simpa [remaining, hfinished, skip, hrest] using length_of_splitLayout? hsplit
    · split
      · next rest hsplit =>
        simpa [remaining, hfinished, skipNewline, hrest] using Lexeme.length_of_split? hsplit
      · next kind rest hsplit =>
        simpa [remaining, hfinished, skipToken, hrest] using Lexeme.length_of_split? hsplit
      · next bytes rest hsplit =>
        simpa [remaining, hfinished, skipToken, hrest] using Lexeme.length_of_split? hsplit
      · simp [remaining, hfinished, skipToken, hrest]

/-- The next token and the scanner after it. There is none once the end of input has been returned. -/
def next? (scanner : Scanner) : Option (Token × Scanner) :=
  if scanner.finished then none
  else match scanner.advance.1 with
    | some token => some (token, scanner.advance.2)
    | none => scanner.advance.2.next?
termination_by scanner.remaining
decreasing_by exact remaining_advance_lt scanner (by simp_all)

def tokens (scanner : Scanner) : List Token :=
  if scanner.finished then []
  else scanner.advance.1.toList ++ scanner.advance.2.tokens
termination_by scanner.remaining
decreasing_by exact remaining_advance_lt scanner (by simp_all)

def drain (scanner : Scanner) : Scanner :=
  if scanner.finished then scanner else scanner.advance.2.drain
termination_by scanner.remaining
decreasing_by exact remaining_advance_lt scanner (by simp_all)

/-- The tokens still to come are the next one and those that come after it. -/
theorem tokens_eq (scanner : Scanner) :
    scanner.tokens = match scanner.next? with
      | some (token, later) => token :: later.tokens
      | none => [] := by
  fun_induction next? scanner with
  | case1 scanner hfinished => rw [tokens]; simp [hfinished]
  | case2 scanner hfinished token htoken => rw [tokens]; simp [hfinished, htoken]
  | case3 scanner hfinished hnone ih => rw [tokens]; simp [hfinished, hnone, ih]

end Scanner

/-- The tokens of a source. Scanning never fails: what is no word is an unknown token. -/
def scan (source : List UInt8) : List Token := (Scanner.start source).tokens

end GrammarCheck
