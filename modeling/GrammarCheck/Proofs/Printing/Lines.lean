import GrammarCheck.Proofs.Printing.Written

/-!
# Scanning what is written

A scanner before what is written for tokens returns the tokens, one after the other, and has passed
over the space after each of them. The full stop and the newline after it end a line, so that the
next production begins the next line.
-/

namespace GrammarCheck

theorem forall_mem_head?_cons {holds : UInt8 → Prop} {byte : UInt8} {rest : List UInt8} (hbyte : holds byte) :
    ∀ first ∈ (byte :: rest).head?, holds first := by
  intro first hfirst
  rwa [← Option.some.inj hfirst]

namespace Scanner

/-- The scanner returns the tokens and goes on as the other one, which has not come to the end. -/
structure Returns (scanner : Scanner) (read : List Token) (scanner' : Scanner) : Prop where
  tokens_eq : scanner.tokens = read ++ scanner'.tokens
  unfinished : scanner'.finished = false

variable {scanner scanner' : Scanner} {later : List UInt8}

theorem returns_nil (hunfinished : scanner.finished = false) : scanner.Returns [] scanner := ⟨rfl, hunfinished⟩

theorem Returns.trans {last : Scanner} {read read' : List Token} (hfirst : scanner.Returns read scanner')
    (hsecond : scanner'.Returns read' last) : scanner.Returns (read ++ read') last := by
  refine ⟨?_, hsecond.unfinished⟩
  rw [hfirst.tokens_eq, hsecond.tokens_eq, List.append_assoc]

theorem returns_advance {token? : Option Token} (hunfinished : scanner.finished = false)
    (hadvance : scanner.advance = (token?, scanner')) (hunfinished' : scanner'.finished = false) :
    scanner.Returns token?.toList scanner' := by
  refine ⟨?_, hunfinished'⟩
  rw [tokens_of_not_finished hunfinished, hadvance]

/-! ### One token -/

theorem returns_space (hunfinished : scanner.finished = false) (hrest : scanner.rest = space :: later)
    (hlater : ∀ byte ∈ later.head?, isBlank byte = false) : scanner.Returns [] (scanner.skip 1 later) := by
  have hadvance := advance_of_isBlank hrest rfl
  have htake : later.takeWhile isBlank = [] := by
    cases later with
    | nil => rfl
    | cons byte following => exact List.takeWhile_cons_of_neg (by simp [hlater byte rfl])
  have hdrop : later.dropWhile isBlank = later := by
    cases later with
    | nil => rfl
    | cons byte following => exact List.dropWhile_cons_of_neg (by simp [hlater byte rfl])
  rw [htake, hdrop] at hadvance
  exact returns_advance hunfinished hadvance hunfinished

theorem returns_newline (hunfinished : scanner.finished = false) (hrest : scanner.rest = newline :: later) :
    scanner.Returns [] (scanner.skipNewline later) :=
  returns_advance hunfinished (advance_of_newline hrest) hunfinished

theorem returns_punctuation (hunfinished : scanner.finished = false) {byte : UInt8} {kind : Kind}
    (hrest : scanner.rest = byte :: later) (hkind : Kind.ofPunctuation? byte = some kind) :
    scanner.Returns [scanner.token kind []] (scanner.skipToken 1 later) :=
  returns_advance hunfinished (advance_of_punctuation hrest hkind) hunfinished

theorem returns_word (hunfinished : scanner.finished = false) {text : List UInt8} (hne : text ≠ [])
    (hplain : ∀ byte ∈ text, isDelimiter byte = false) (hrest : scanner.rest = text ++ later)
    (hlater : ∀ byte ∈ later.head?, isDelimiter byte = true) :
    scanner.Returns [scanner.token (Kind.ofWord text) text] (scanner.skipToken text.length later) := by
  obtain ⟨byte, following, rfl⟩ := List.exists_cons_of_ne_nil hne
  obtain ⟨hbyte, hfollowing⟩ := List.forall_mem_cons.1 hplain
  rw [List.cons_append] at hrest
  have hadvance := advance_of_word hrest hbyte
  have hinside : ∀ byte' ∈ following, (!isDelimiter byte') = true := by
    intro byte' hmem
    rw [hfollowing byte' hmem]
    rfl
  have hends : later.takeWhile (!isDelimiter ·) = [] ∧ later.dropWhile (!isDelimiter ·) = later := by
    cases later with
    | nil => exact ⟨rfl, rfl⟩
    | cons gap rest => simp [hlater gap rfl]
  rw [List.takeWhile_append_of_pos hinside, List.dropWhile_append_of_pos hinside, hends.1, hends.2, List.append_nil]
    at hadvance
  exact returns_advance hunfinished hadvance hunfinished

theorem isWord_iff (kind : Kind) (text : List UInt8) :
    IsWord kind text ↔ text ≠ [] ∧ (∀ byte ∈ text, isDelimiter byte = false) ∧ Kind.ofWord text = kind := by
  refine ⟨IsWord.plain, ?_⟩
  intro ⟨hne, hplain, hkind⟩
  have hword := returns_word (show (start text).finished = false from rfl) hne hplain (List.append_nil text).symm
    (by simp)
  have hend := advance_of_rest_eq_nil (show ((start text).skipToken text.length []).rest = [] from rfl)
  rw [IsWord, scan, hword.tokens_eq, tokens_of_not_finished hword.unfinished, hend, tokens, hkind]
  rfl

/-- What is written for a token is read as the token when a byte follows that ends words. -/
theorem exists_returns_written (hunfinished : scanner.finished = false) {token : Token} (hwritable : token.Writable)
    (hrest : scanner.rest = token.written ++ later) (hlater : ∀ byte ∈ later.head?, isDelimiter byte = true) :
    ∃ read, scanner.Returns [read] (scanner.skipToken token.written.length later) ∧ read.unplaced = token ∧
      read.position = scanner.position := by
  rcases hwritable.punctuation_or_word with hpunctuation | ⟨hkind, hword⟩
  · obtain ⟨c, hchar⟩ := Option.isSome_iff_exists.1 hpunctuation
    obtain ⟨byte, hbyte, hof⟩ := Kind.utf8EncodeChar_of_punctuation? hchar
    have hwritten : token.written = [byte] := by simp [Token.written, hchar, hbyte]
    rw [hwritten] at hrest ⊢
    refine ⟨_, returns_punctuation hunfinished hrest hof, ?_, rfl⟩
    have hsame : (scanner.token token.kind []).unplaced = token.unplaced := by
      apply Token.unplaced_congr (show (scanner.token token.kind []).kind = token.kind from rfl)
      intro (hkind : token.kind = .nonTerminal ∨ token.kind = .terminal)
      rcases hkind with hkind | hkind <;> simp [hkind, Kind.punctuation?] at hchar
    exact hsame.trans hwritable.unplaced_eq
  · obtain ⟨hne, hplain, hof⟩ := hword.plain
    have hwritten : token.written = token.text := by
      rw [← Token.written_unplaced_of_word hkind, hwritable.unplaced_eq]
    rw [hwritten] at hrest ⊢
    refine ⟨_, returns_word hunfinished hne hplain hrest hlater, ?_, rfl⟩
    have hsame : (scanner.token (Kind.ofWord token.text) token.text).unplaced = token.unplaced :=
      Token.unplaced_congr hof fun _ => rfl
    exact hsame.trans hwritable.unplaced_eq

/-! ### One line -/

theorem exists_cons_written {token : Token} (hwritable : token.Writable) :
    ∃ byte following, token.written = byte :: following ∧ isBlank byte = false := by
  rcases hwritable.punctuation_or_word with hpunctuation | ⟨hkind, hword⟩
  · obtain ⟨c, hchar⟩ := Option.isSome_iff_exists.1 hpunctuation
    obtain ⟨byte, hbyte, hof⟩ := Kind.utf8EncodeChar_of_punctuation? hchar
    exact ⟨byte, [], by simp [Token.written, hchar, hbyte], isBlank_eq_false_of_ofPunctuation? hof⟩
  · obtain ⟨hne, hplain, _⟩ := hword.plain
    obtain ⟨byte, following, htext⟩ := List.exists_cons_of_ne_nil hne
    have hbyte : isDelimiter byte = false := hplain byte (by rw [htext]; exact List.mem_cons_self)
    refine ⟨byte, following, ?_, ((isDelimiter_eq_false_iff byte).1 hbyte).1⟩
    rw [← Token.written_unplaced_of_word hkind, hwritable.unplaced_eq] at htext
    exact htext

theorem isBlank_head?_of_writable {tokens : List Token} (hwritable : ∀ token ∈ tokens, token.Writable)
    (hlater : ∀ byte ∈ later.head?, isBlank byte = false) :
    ∀ byte ∈ (tokens.flatMap Token.writtenApart ++ later).head?, isBlank byte = false := by
  cases tokens with
  | nil => exact hlater
  | cons token rest =>
    obtain ⟨byte, following, hwritten, hblank⟩ := exists_cons_written (hwritable token List.mem_cons_self)
    intro byte' hbyte'
    rw [List.flatMap_cons, Token.writtenApart, hwritten] at hbyte'
    rwa [← Option.some.inj hbyte']

/-- By induction on the tokens, each with the space that follows it. -/
theorem exists_returns_row {tokens : List Token} (hunfinished : scanner.finished = false)
    (hwritable : ∀ token ∈ tokens, token.Writable) (hlater : ∀ byte ∈ later.head?, isBlank byte = false)
    (hrest : scanner.rest = tokens.flatMap Token.writtenApart ++ later) :
    ∃ read scanner', scanner.Returns read scanner' ∧ read.map Token.unplaced = tokens ∧
      (∀ first ∈ read.head?, first.position = scanner.position) ∧ scanner'.rest = later ∧
      scanner'.line = scanner.line := by
  induction tokens generalizing scanner with
  | nil => exact ⟨[], scanner, returns_nil hunfinished, rfl, by simp, hrest, rfl⟩
  | cons token rest ih =>
    obtain ⟨htoken, hothers⟩ := List.forall_mem_cons.1 hwritable
    rw [List.flatMap_cons, Token.writtenApart, List.append_assoc, List.append_assoc] at hrest
    obtain ⟨first, hfirst, hunplaced, hposition⟩ := exists_returns_written hunfinished htoken hrest
      (forall_mem_head?_cons (by decide))
    have hspace := returns_space hfirst.unfinished rfl (isBlank_head?_of_writable hothers hlater)
    obtain ⟨read, scanner', hread, hothersUnplaced, _, hrest', hline⟩ := ih hspace.unfinished hothers rfl
    refine ⟨first :: read, scanner', (hfirst.trans hspace).trans hread, ?_, ?_, hrest', hline⟩
    · rw [List.map_cons, hunplaced, hothersUnplaced]
    · intro head hhead
      rwa [← Option.some.inj hhead]

/-- What is printed for a production is read as its tokens. The scanner is at the next line then. -/
theorem exists_returns_line {production : Production} (hunfinished : scanner.finished = false)
    (hshaped : production.Shaped .canonical)
    (hrest : scanner.rest = Utf8.encode (production.render ++ "\n") ++ later) :
    ∃ name others scanner', scanner.Returns (name :: others) scanner' ∧
      (name :: others).map Token.unplaced = production.unplaced.toTokens ∧ name.position = scanner.position ∧
      scanner'.rest = later ∧ scanner'.position = ⟨scanner.line + 1, 1⟩ := by
  rw [hshaped.encode_render, List.append_assoc, List.append_assoc] at hrest
  obtain ⟨read, before, hread, hunplaced, hposition, hbefore, hline⟩ :=
    exists_returns_row hunfinished hshaped.writable (forall_mem_head?_cons (by decide)) hrest
  have hstopRest : before.rest = (Token.bare .terminator).written ++ newline :: later := hbefore
  obtain ⟨stop, hstop, hterminator, _⟩ :=
    exists_returns_written hread.unfinished (Token.writable_bare rfl) hstopRest (forall_mem_head?_cons (by decide))
  have hnewline := returns_newline hstop.unfinished rfl
  obtain ⟨name, others, rfl, _, _⟩ := List.map_eq_cons_iff.1 hunplaced
  have hall := (hread.trans hstop).trans hnewline
  rw [List.append_nil] at hall
  refine ⟨name, others ++ [stop], _, hall, ?_, hposition name rfl, rfl, ?_⟩
  · rw [← List.cons_append, List.map_append, hunplaced, List.map_singleton, hterminator,
      Production.toTokens_eq_openTokens]
  · rw [← hline]
    simp [position, skipNewline, skipToken]

end Scanner

end GrammarCheck
