import GrammarCheck.Proofs.Scanning.Counters
import Mathlib.Logic.Relation

/-!
# Calls for tokens

Tokens are returned one by one, and more calls may be made than there are tokens. The main statement says
what the counters of a scanner say after any number of calls and between any two rounds of a call, and that
rounds on counters then always give a result and never lack a lexeme.
-/

namespace GrammarCheck

/-- One past the last newline before the offset, or 0 if there is none. -/
def IsLineStart (source : List UInt8) (offset lineStart : Nat) : Prop :=
  (lineStart = 0 ∧ newline ∉ source.take offset) ∨
    ∃ last, lineStart = last + 1 ∧ last < offset ∧ source[last]? = some newline ∧
      ∀ place, last < place → place < offset → source[place]? ≠ some newline

/-- What the counters say of a source when the tokens have been returned. -/
structure Counters.Sound (source : List UInt8) (returned : List Token) (counters : Counters) : Prop where
  lineStart_le : counters.lineStart ≤ counters.offset
  offset_le : counters.offset ≤ source.length
  line_eq : counters.line = 1 + (source.take counters.offset).count newline
  isLineStart : IsLineStart source counters.offset counters.lineStart
  index_eq : counters.index = returned.length
  finished_iff : counters.finished = true ↔ ∃ token ∈ returned, token.kind = .endOfInput

/-- A round gives a result. It ends the input exactly if nothing is left. Otherwise it goes on in the source,
and a lexeme begins where there is no layout. -/
def Counters.Proceeds (source : List UInt8) (counters : Counters) : Prop :=
  ∃ rest token? later, cutFrom? source counters.offset = some rest ∧
    counters.round? source = some (token?, later) ∧
    ((∃ token ∈ token?, token.kind = .endOfInput) ↔ rest = []) ∧
    (rest ≠ [] → counters.offset < later.offset ∧ (splitLayout? rest = none → (lexeme? rest).isSome = true))

/-- Any number of rounds of one call lead from the one to the other. They return no token. -/
def Counters.Rounds (source : List UInt8) : Counters → Counters → Prop :=
  Relation.ReflTransGen fun counters later => counters.round? source = some (none, later)

/-! ### Beginnings of lines -/

/-- Bytes are whole lines and then those after the last newline. -/
theorem exists_wholeLines_append (bytes : List UInt8) :
    ∃ lines line, bytes = lines ++ line ∧ WholeLines lines ∧ newline ∉ line ∧
      line.length = (bytes.reverse.takeWhile (· != newline)).length := by
  refine ⟨(bytes.reverse.dropWhile (· != newline)).reverse, (bytes.reverse.takeWhile (· != newline)).reverse,
    ?_, ?_, ?_, List.length_reverse⟩
  · rw [← List.reverse_append, List.takeWhile_append_dropWhile, List.reverse_reverse]
  · cases hlines : bytes.reverse.dropWhile (· != newline) with
    | nil => exact .inl rfl
    | cons byte rest =>
      have hhead : byte ∈ (bytes.reverse.dropWhile (· != newline)).head? := by
        rw [hlines]
        rfl
      have hbyte := Scanner.eq_false_of_mem_head?_dropWhile hhead
      exact .inr (by simpa using hbyte)
  · intro hmem
    simpa using List.mem_takeWhile_imp (List.mem_reverse.1 hmem)

/-- The column counts the bytes since the last newline. -/
theorem isLineStart_of_column {source : List UInt8} {offset lineStart : Nat} (hoffset : offset ≤ source.length)
    (hcolumn : lineStart + (positionAt source offset).column = offset + 1) : IsLineStart source offset lineStart := by
  obtain ⟨lines, line, hread, hlines, hline, hlength⟩ := exists_wholeLines_append (source.take offset)
  have hoffset : offset = lines.length + line.length := by
    rw [← List.length_append, ← hread, List.length_take, Nat.min_eq_left hoffset]
  have hstart : lineStart = lines.length := by
    simp only [positionAt, ← hlength] at hcolumn
    omega
  rcases hlines with rfl | hlast
  · exact .inl ⟨hstart, hread ▸ hline⟩
  · obtain ⟨earlier, rfl⟩ := List.getLast?_eq_some_iff.1 hlast
    have hat (place : Nat) (hplace : place < offset) : source[place]? = (earlier ++ [newline] ++ line)[place]? := by
      rw [← hread, List.getElem?_take_of_lt hplace]
    rw [List.length_append, List.length_singleton] at hstart hoffset
    refine .inr ⟨earlier.length, hstart, by omega, ?_, ?_⟩
    · rw [hat _ (by omega), List.append_assoc, List.getElem?_append_right (Nat.le_refl _), Nat.sub_self]
      rfl
    · intro place hlast hplace hnewline
      rw [hat place hplace, List.getElem?_append_right (by simpa using Nat.succ_le_of_lt hlast)] at hnewline
      exact hline (List.mem_of_getElem? hnewline)

namespace Scanner

/-- The token that a call returns, if any, and the scanner after it. -/
def call (scanner : Scanner) : Option Token × Scanner :=
  match scanner.next? with
  | some (token, later) => (some token, later)
  | none => (none, scanner)

/-- The scanner after so many calls. -/
def after (scanner : Scanner) : Nat → Scanner
  | 0 => scanner
  | calls + 1 => (scanner.after calls).call.2

/-- What is true of a scanner when the tokens have been returned. -/
structure Returned (source : List UInt8) (returned : List Token) (scanner : Scanner) : Prop where
  stands : scanner.Stands source
  index_eq : scanner.index = returned.length
  finished_iff : scanner.finished = true ↔ ∃ token ∈ returned, token.kind = .endOfInput

section Calls

variable {source : List UInt8} {returned : List Token} {scanner : Scanner} {token : Token}

theorem returned_start (source : List UInt8) : (start source).Returned source [] :=
  ⟨stands_start source, rfl, by simp [start]⟩

/-! ### One round more -/

theorem Returned.advance_of_none (hreturned : scanner.Returned source returned) (hnone : scanner.advance.1 = none) :
    scanner.advance.2.Returned source returned := by
  have hrest : scanner.rest ≠ [] := by
    intro hrest
    rw [advance_of_rest_eq_nil hrest] at hnone
    contradiction
  have hround := round_advance hrest
  obtain ⟨-, -, -, hfinished, -⟩ := hround.exists_passed
  refine ⟨hreturned.stands.advance, ?_, hfinished ▸ hreturned.finished_iff⟩
  rw [hround.index_eq, hnone, hreturned.index_eq]
  rfl

/-- A token that is returned is counted, and the end of input is the only one after which no round is left. -/
theorem advance_of_some (hopen : scanner.finished = false) (hsome : scanner.advance.1 = some token) :
    scanner.advance.2.index = scanner.index + 1 ∧
      (scanner.advance.2.finished = true ↔ token.kind = .endOfInput) := by
  by_cases hrest : scanner.rest = []
  · rw [advance_of_rest_eq_nil hrest] at hsome ⊢
    exact ⟨rfl, by simp [← Option.some.inj hsome, Scanner.token]⟩
  · have hround := round_advance hrest
    obtain ⟨-, -, -, hfinished, -⟩ := hround.exists_passed
    have hkind := hround.isEndOfInput_eq_false token hsome
    rw [hround.index_eq, hsome, hfinished, hopen]
    exact ⟨rfl, by simpa [Token.isEndOfInput] using hkind⟩

theorem Returned.advance_of_some (hreturned : scanner.Returned source returned) (hopen : scanner.finished = false)
    (hsome : scanner.advance.1 = some token) : scanner.advance.2.Returned source (returned ++ [token]) := by
  obtain ⟨hindex, hfinished⟩ := Scanner.advance_of_some hopen hsome
  have hearlier : ∀ other ∈ returned, other.kind ≠ .endOfInput := by
    intro other hmem hkind
    have htrue := hreturned.finished_iff.2 ⟨other, hmem, hkind⟩
    rw [hopen] at htrue
    contradiction
  refine ⟨hreturned.stands.advance, ?_, ?_⟩
  · rw [hindex, hreturned.index_eq, List.length_append, List.length_singleton]
  · rw [hfinished]
    constructor
    · exact fun hkind => ⟨token, by simp, hkind⟩
    · rintro ⟨other, hmem, hkind⟩
      rcases List.mem_append.1 hmem with hbefore | hlast
      · exact absurd hkind (hearlier other hbefore)
      · exact List.mem_singleton.1 hlast ▸ hkind

/-! ### One call more -/

theorem call_of_finished (hfinished : scanner.finished = true) : scanner.call = (none, scanner) := by
  rw [call, next?, if_pos hfinished]

/-- Before the end of input there is a next token. By induction on the rounds up to it. -/
theorem Returned.exists_next?_eq (hreturned : scanner.Returned source returned) (hopen : scanner.finished = false) :
    ∃ token later, scanner.next? = some (token, later) ∧
      scanner.counters.next? source = some (some token, later.counters) ∧
      later.Returned source (returned ++ [token]) := by
  fun_induction Scanner.next? scanner with
  | case1 scanner hfinished => simp [hopen] at hfinished
  | case2 scanner hnot token htoken =>
    have hround := hreturned.stands.round?_eq
    rw [htoken] at hround
    exact ⟨token, scanner.advance.2, rfl, Counters.next?_of_some hopen hround, hreturned.advance_of_some hopen htoken⟩
  | case3 scanner hnot hnone ih =>
    have hround := hreturned.stands.round?_eq
    rw [hnone] at hround
    have hlater := hreturned.advance_of_none hnone
    have hunfinished : scanner.advance.2.finished = false := by
      rw [← Bool.not_eq_true, hlater.finished_iff, ← hreturned.finished_iff, hopen]
      exact Bool.false_ne_true
    have hnext := ih hlater hunfinished
    rwa [← Counters.next?_of_none hopen hround] at hnext

/-- By induction on the calls, with the tokens that are still to come. -/
theorem calls?_eq (source : List UInt8) (calls : Nat) :
    Counters.calls? source calls = some ((scan source).take calls, ((start source).after calls).counters) ∧
      ((start source).after calls).Returned source ((scan source).take calls) ∧
      ((start source).after calls).tokens = (scan source).drop calls := by
  induction calls with
  | zero => exact ⟨rfl, returned_start source, rfl⟩
  | succ calls ih =>
    obtain ⟨hcalls, hreturned, htokens⟩ := ih
    rw [after]
    generalize (start source).after calls = scanner at hcalls hreturned htokens
    rw [Counters.calls?, hcalls]
    cases hfinished : scanner.finished with
    | true =>
      rw [tokens_of_finished hfinished, eq_comm, List.drop_eq_nil_iff] at htokens
      have hall : (scan source).take (calls + 1) = (scan source).take calls := by
        rw [List.take_of_length_le htokens, List.take_of_length_le (Nat.le_succ_of_le htokens)]
      rw [call_of_finished hfinished, hall, tokens_of_finished hfinished,
        List.drop_of_length_le (Nat.le_succ_of_le htokens)]
      have hnext : scanner.counters.next? source = some (none, scanner.counters) := Counters.next?_of_finished hfinished
      exact ⟨by simp [hnext], hreturned, rfl⟩
    | false =>
      obtain ⟨token, later, hnext, hcounters, hlater⟩ := hreturned.exists_next?_eq hfinished
      have hcall : scanner.call.2 = later := by rw [call, hnext]
      rw [tokens_eq, hnext] at htokens
      have hmore : (scan source).take (calls + 1) = (scan source).take calls ++ [token] := by
        rw [List.take_add, ← htokens]
        rfl
      rw [hcall, hmore]
      refine ⟨by simp [hcounters], hlater, ?_⟩
      rw [← List.tail_drop, ← htokens]
      rfl

end Calls

/-! ### What the counters say -/

section Sound

variable {source : List UInt8} {returned : List Token} {scanner : Scanner} {counters : Counters}

theorem Returned.sound (hreturned : scanner.Returned source returned) : scanner.counters.Sound source returned where
  lineStart_le := hreturned.stands.lineStart_le
  offset_le := hreturned.stands.offset_le
  line_eq := hreturned.stands.line_eq
  isLineStart := isLineStart_of_column hreturned.stands.offset_le hreturned.stands.column_eq
  index_eq := hreturned.index_eq
  finished_iff := hreturned.finished_iff

theorem Stands.proceeds (hstands : scanner.Stands source) : scanner.counters.Proceeds source := by
  refine ⟨scanner.rest, scanner.advance.1, scanner.advance.2.counters, hstands.cutFrom?_eq, hstands.round?_eq, ?_, ?_⟩
  · constructor
    · rintro ⟨token, htoken, hkind⟩
      by_contra hrest
      have hopen := (round_advance hrest).isEndOfInput_eq_false token htoken
      simp [Token.isEndOfInput, hkind] at hopen
    · intro hrest
      rw [advance_of_rest_eq_nil hrest]
      exact ⟨_, rfl, rfl⟩
  · intro hrest
    obtain ⟨piece?, -, hpasses⟩ := (round_advance hrest).passes hstands
    exact ⟨hpasses.offset_lt, isSome_lexeme? hrest⟩

/-- Within a call, the counters are those of a scanner that has returned the same tokens. By induction on
the rounds of the call. -/
theorem Returned.exists_counters_eq (hreturned : scanner.Returned source returned)
    (hrounds : Counters.Rounds source scanner.counters counters) :
    ∃ scanner' : Scanner, scanner'.counters = counters ∧ scanner'.Returned source returned := by
  induction hrounds with
  | refl => exact ⟨scanner, rfl, hreturned⟩
  | tail _ hround ih =>
    obtain ⟨scanner', rfl, hreturned'⟩ := ih
    rw [hreturned'.stands.round?_eq, Option.some.injEq, Prod.mk.injEq] at hround
    obtain ⟨hnone, rfl⟩ := hround
    exact ⟨scanner'.advance.2, rfl, hreturned'.advance_of_none hnone⟩

end Sound

end Scanner

/-- After any number of calls, and between any two rounds of the next one, no cut is beyond the end of the source
and no difference is negative. The counters say how many lines and tokens there are before the offset and where
its line begins. Once the end of input has been returned, a call returns nothing and changes nothing. Before that
every round goes on, and no byte is taken for want of a lexeme. -/
theorem Counters.sound_after_calls (source : List UInt8) (calls : Nat) :
    ∃ scanner returned, (Scanner.start source).after calls = scanner ∧ (scan source).take calls = returned ∧
      calls? source calls = some (returned, scanner.counters) ∧ scanner.rest = source.drop scanner.offset ∧
      scanner.counters.Sound source returned ∧
      (scanner.finished = true → scanner.call = (none, scanner) ∧
        scanner.counters.next? source = some (none, scanner.counters)) ∧
      (scanner.finished = false → ∀ counters, Rounds source scanner.counters counters →
        counters.Sound source returned ∧ counters.Proceeds source) := by
  obtain ⟨hcalls, hreturned, -⟩ := Scanner.calls?_eq source calls
  refine ⟨_, _, rfl, rfl, hcalls, hreturned.stands.drop_eq.symm, hreturned.sound, ?_, ?_⟩
  · intro hfinished
    exact ⟨Scanner.call_of_finished hfinished, next?_of_finished hfinished⟩
  · intro _ counters hrounds
    obtain ⟨scanner', rfl, hreturned'⟩ := hreturned.exists_counters_eq hrounds
    exact ⟨hreturned'.sound, hreturned'.stands.proceeds⟩

end GrammarCheck
