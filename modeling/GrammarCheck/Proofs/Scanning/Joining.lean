import GrammarCheck.Proofs.Scanning.InputEnd
import GrammarCheck.Proofs.Scanning.Prefix

/-!
# Sources joined by newlines

A newline ends whatever the source before it leaves open, so that nothing after it has a say in the
tokens before it. What is scanned after a newline is scanned as if it stood alone, but for the lines
and the tokens that have been counted so far.
-/

namespace GrammarCheck

/-- The token after so many more lines and tokens. -/
def Token.shifted (lines tokens : Nat) (token : Token) : Token :=
  { token with position := ⟨token.line + lines, token.position.column⟩, index := token.index + tokens }

/-- The sources one after the other, with a newline between each two of them. -/
def joined (sources : List (List UInt8)) : List UInt8 := [newline].intercalate sources

namespace Scanner

/-! ### Scanners that have counted more -/

/-- The second scanner has the same bytes left as the first one and stands at the same column, after
so many more lines and tokens. -/
structure IsShifted (lines tokens : Nat) (scanner scanner' : Scanner) : Prop where
  rest_eq : scanner'.rest = scanner.rest
  finished_eq : scanner'.finished = scanner.finished
  line_eq : scanner'.line = scanner.line + lines
  index_eq : scanner'.index = scanner.index + tokens
  lineStart_le : scanner.lineStart ≤ scanner.offset
  offset_eq : scanner'.offset + scanner.lineStart = scanner.offset + scanner'.lineStart

variable {lines tokens : Nat} {scanner scanner' : Scanner}

theorem IsShifted.token_eq (hshifted : IsShifted lines tokens scanner scanner') (kind : Kind) (text : List UInt8) :
    scanner'.token kind text = (scanner.token kind text).shifted lines tokens := by
  have hcolumn : scanner'.offset - scanner'.lineStart + 1 = scanner.offset - scanner.lineStart + 1 := by
    have hstart := hshifted.lineStart_le
    have hoffset := hshifted.offset_eq
    omega
  rw [token, token, Token.shifted, position, position, hcolumn, hshifted.line_eq, hshifted.index_eq]
  rfl

theorem IsShifted.skip (hshifted : IsShifted lines tokens scanner scanner') (length : Nat) (rest : List UInt8) :
    IsShifted lines tokens (scanner.skip length rest) (scanner'.skip length rest) where
  rest_eq := rfl
  finished_eq := hshifted.finished_eq
  line_eq := hshifted.line_eq
  index_eq := hshifted.index_eq
  lineStart_le := Nat.le_add_right_of_le hshifted.lineStart_le
  offset_eq := by
    have hoffset := hshifted.offset_eq
    show scanner'.offset + length + scanner.lineStart = scanner.offset + length + scanner'.lineStart
    omega

theorem IsShifted.skipNewline (hshifted : IsShifted lines tokens scanner scanner') (rest : List UInt8) :
    IsShifted lines tokens (scanner.skipNewline rest) (scanner'.skipNewline rest) where
  rest_eq := rfl
  finished_eq := hshifted.finished_eq
  line_eq := by
    have hline := hshifted.line_eq
    show scanner'.line + 1 = scanner.line + 1 + lines
    omega
  index_eq := hshifted.index_eq
  lineStart_le := Nat.le_refl _
  offset_eq := Nat.add_comm _ _

theorem IsShifted.skipToken (hshifted : IsShifted lines tokens scanner scanner') (length : Nat) (rest : List UInt8) :
    IsShifted lines tokens (scanner.skipToken length rest) (scanner'.skipToken length rest) where
  rest_eq := rfl
  finished_eq := hshifted.finished_eq
  line_eq := hshifted.line_eq
  index_eq := by
    have hindex := hshifted.index_eq
    show scanner'.index + 1 = scanner.index + 1 + tokens
    omega
  lineStart_le := (hshifted.skip length rest).lineStart_le
  offset_eq := (hshifted.skip length rest).offset_eq

/-- The cases are those of a round, which looks at nothing but the bytes that are left. -/
theorem IsShifted.advance (hshifted : IsShifted lines tokens scanner scanner') :
    scanner'.advance.1 = scanner.advance.1.map (Token.shifted lines tokens) ∧
      IsShifted lines tokens scanner.advance.2 scanner'.advance.2 := by
  rw [Scanner.advance, Scanner.advance, hshifted.rest_eq]
  cases scanner.rest with
  | nil =>
    have hended := hshifted.skipToken 0 []
    refine ⟨congrArg some (hshifted.token_eq .endOfInput []), ?_⟩
    exact ⟨rfl, rfl, hended.line_eq, hended.index_eq, hended.lineStart_le, hended.offset_eq⟩
  | cons byte following =>
    dsimp only
    cases splitLayout? (byte :: following) with
    | some split => exact ⟨rfl, hshifted.skip _ _⟩
    | none =>
      dsimp only
      cases Lexeme.split? (byte :: following) with
      | none => exact ⟨congrArg some (hshifted.token_eq .unknown [byte]), hshifted.skipToken _ _⟩
      | some split =>
        obtain ⟨lexeme, rest⟩ := split
        cases lexeme with
        | newline => exact ⟨rfl, hshifted.skipNewline _⟩
        | punctuation kind => exact ⟨congrArg some (hshifted.token_eq kind []), hshifted.skipToken _ _⟩
        | word bytes => exact ⟨congrArg some (hshifted.token_eq _ bytes), hshifted.skipToken _ _⟩

theorem IsShifted.tokens_eq (hshifted : IsShifted lines tokens scanner scanner') :
    scanner'.tokens = scanner.tokens.map (Token.shifted lines tokens) := by
  have hmap : scanner'.tokens.map id = scanner.tokens.map (Token.shifted lines tokens) := by
    apply map_tokens_eq_of_advance (fun _ _ hrelated => hrelated.finished_eq) _ hshifted
    intro scanner scanner' hrelated _
    rw [Option.map_id, id]
    exact hrelated.advance
  rwa [List.map_id] at hmap

end Scanner

/-! ### Two sources -/

/-- What is scanned of a source before a newline is what is scanned of it alone, but for the end of input.
What follows the newline comes after the lines and the tokens of the source. -/
theorem exists_scan_append_newline (source later : List UInt8) :
    ∃ (read : List Token) (stop : Token), scan source = read ++ [stop] ∧ stop.kind = .endOfInput ∧ stop.text = [] ∧
      scan (source ++ newline :: later) =
        read ++ (scan later).map (Token.shifted (1 + source.count newline) read.length) := by
  obtain ⟨read, last, hlast, hfinished, hline, hindex, htokens⟩ :=
    Scanner.exists_tokens_extend (show (Scanner.start source).finished = false from rfl)
  have halone : scan source = read ++ [last.token .endOfInput []] := by
    have hextend : (Scanner.start source).extend [] = Scanner.start source := by
      rw [Scanner.extend, List.append_nil]
    have hnone : (last.extend []).rest = [] := by rw [Scanner.extend, hlast, List.append_nil]
    have hunfinished : (last.extend []).finished = false := hfinished
    rw [scan, ← hextend, htokens [] (.inr (by simp)), Scanner.tokens_of_rest_eq_nil hunfinished hnone]
    rfl
  refine ⟨read, last.token .endOfInput [], halone, rfl, rfl, ?_⟩
  have hrest : (last.extend (newline :: later)).rest = newline :: later := by
    rw [Scanner.extend, hlast, List.nil_append]
  have hshifted : Scanner.IsShifted (1 + source.count newline) read.length (Scanner.start later)
      ((last.extend (newline :: later)).skipNewline later) := by
    refine ⟨rfl, hfinished, ?_, ?_, Nat.le_refl 0, Nat.add_comm _ _⟩
    · show last.line + 1 = 1 + (1 + source.count newline)
      have hcount : last.line = 1 + source.count newline := hline
      omega
    · exact hindex
  have hboth : scan (source ++ newline :: later) = read ++ (last.extend (newline :: later)).tokens :=
    htokens (newline :: later) (.inr (by simp))
  have hunfinished : (last.extend (newline :: later)).finished = false := hfinished
  rw [hboth, Scanner.tokens_of_not_finished hunfinished, Scanner.advance_of_newline hrest, hshifted.tokens_eq]
  rfl

/-- Scanning two sources joined by a newline is scanning one and then the other. The first source loses the
token that ends it, and the tokens of the second one come after the lines and the tokens before them; their
kinds, texts and columns stay. -/
theorem scan_append_newline (source later : List UInt8) :
    (∃ stop : Token, stop.kind = .endOfInput ∧ stop.text = [] ∧ scan source = openTokens source ++ [stop]) ∧
      scan (source ++ [newline] ++ later) = openTokens source ++
        (scan later).map (Token.shifted (1 + source.count newline) ((scan source).length - 1)) := by
  obtain ⟨read, stop, hscan, hkind, htext, hjoined⟩ := exists_scan_append_newline source later
  obtain ⟨_, _, _, _, hopen⟩ := exists_openTokens_eq source
  have hread : openTokens source = read := (List.append_inj' (hopen.symm.trans hscan) rfl).1
  have hcount : (scan source).length - 1 = read.length := by
    rw [hscan, List.length_append, List.length_singleton, Nat.add_sub_cancel]
  rw [hread, hcount]
  refine ⟨⟨stop, hkind, htext, hscan⟩, ?_⟩
  rw [List.append_assoc, List.singleton_append]
  exact hjoined

end GrammarCheck
