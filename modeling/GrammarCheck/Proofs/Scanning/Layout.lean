import GrammarCheck.Proofs.Printing.Lines
import GrammarCheck.Proofs.Syntax.Relabeling

/-!
# Sources that lay out lexemes

The same lexemes can be written in many ways: with any blanks, newlines and comments before, between and
after them, as long as two words do not touch. A scanner passes over the layout and returns one token
for each lexeme, so that places apart the tokens are a function of the lexemes.
-/

namespace GrammarCheck

/-! ### Layout -/

/-- Blanks, newlines and comments, each of the comments with the newline that ends it. -/
inductive Layout : List UInt8 → Prop where
  | nil : Layout []
  | blank {byte : UInt8} {later : List UInt8} (hblank : isBlank byte = true) (hlater : Layout later) :
      Layout (byte :: later)
  | newline {later : List UInt8} (hlater : Layout later) : Layout (newline :: later)
  | comment {text later : List UInt8} (htext : GrammarCheck.newline ∉ text) (hlater : Layout later) :
      Layout (commentMarker :: (text ++ GrammarCheck.newline :: later))

/-- The source is the lexemes in their order with layout before, between and after them. Right after a
word, no other word may begin without layout. A comment may be ended by the source. -/
inductive LaidOut : (afterWord : Bool) → List Lexeme → List UInt8 → Prop where
  | stop {afterWord : Bool} {layout : List UInt8} (hlayout : Layout layout) : LaidOut afterWord [] layout
  | openComment {afterWord : Bool} {layout text : List UInt8} (hlayout : Layout layout) (htext : newline ∉ text) :
      LaidOut afterWord [] (layout ++ commentMarker :: text)
  | punctuation {afterWord : Bool} {layout later : List UInt8} {byte : UInt8} {kind : Kind} {lexemes : List Lexeme}
      (hlayout : Layout layout) (hkind : Kind.ofPunctuation? byte = some kind) (hlater : LaidOut false lexemes later) :
      LaidOut afterWord (.punctuation kind :: lexemes) (layout ++ byte :: later)
  | word {afterWord : Bool} {layout bytes later : List UInt8} {lexemes : List Lexeme} (hlayout : Layout layout)
      (hapart : afterWord = true → layout ≠ []) (hne : bytes ≠ []) (hplain : ∀ byte ∈ bytes, isDelimiter byte = false)
      (hlater : LaidOut true lexemes later) :
      LaidOut afterWord (.word bytes :: lexemes) (layout ++ (bytes ++ later))

/-- The token of a lexeme without its place, when so many tokens come before it. -/
def Lexeme.token (index : Nat) : Lexeme → Token
  | .newline => { kind := .endOfLine, text := [], position := ⟨0, 0⟩, index }
  | .punctuation kind => { kind, text := [], position := ⟨0, 0⟩, index }
  | .word bytes => { kind := Kind.ofWord bytes, text := bytes, position := ⟨0, 0⟩, index }

/-- The tokens of lexemes, with the end of input after them. -/
def tokensOf : (index : Nat) → List Lexeme → List Token
  | index, [] => [{ kind := .endOfInput, text := [], position := ⟨0, 0⟩, index }]
  | index, lexeme :: rest => lexeme.token index :: tokensOf (index + 1) rest

/-! ### First bytes -/

theorem forall_mem_head?_append {holds : UInt8 → Prop} {first later : List UInt8}
    (hfirst : ∀ byte ∈ first.head?, holds byte) (hlater : first = [] → ∀ byte ∈ later.head?, holds byte) :
    ∀ byte ∈ (first ++ later).head?, holds byte := by
  cases first with
  | nil => exact hlater rfl
  | cons byte rest => exact hfirst

theorem isBlank_eq_false_of_mem_head? {bytes later : List UInt8} (hne : bytes ≠ [])
    (hplain : ∀ byte ∈ bytes, isDelimiter byte = false) : ∀ byte ∈ (bytes ++ later).head?, isBlank byte = false := by
  apply forall_mem_head?_append
  · intro byte hbyte
    exact ((isDelimiter_eq_false_iff byte).1 (hplain byte (List.mem_of_mem_head? hbyte))).1
  · exact fun hnil => absurd hnil hne

theorem Layout.isDelimiter_of_mem_head? {layout : List UInt8} (hlayout : Layout layout) :
    ∀ byte ∈ layout.head?, isDelimiter byte = true := by
  cases hlayout with
  | nil => simp
  | blank hblank => exact forall_mem_head?_cons (isDelimiter_of_isBlank hblank)
  | newline => exact forall_mem_head?_cons rfl
  | comment => exact forall_mem_head?_cons rfl

/-- A word that stands before what is laid out ends there. -/
theorem LaidOut.isDelimiter_of_mem_head? {lexemes : List Lexeme} {source : List UInt8}
    (hlaid : LaidOut true lexemes source) : ∀ byte ∈ source.head?, isDelimiter byte = true := by
  cases hlaid with
  | stop hlayout => exact hlayout.isDelimiter_of_mem_head?
  | openComment hlayout _ =>
    exact forall_mem_head?_append hlayout.isDelimiter_of_mem_head? fun _ => forall_mem_head?_cons rfl
  | punctuation hlayout hkind _ =>
    apply forall_mem_head?_append hlayout.isDelimiter_of_mem_head?
    exact fun _ => forall_mem_head?_cons (isDelimiter_of_ofPunctuation? hkind)
  | word hlayout hapart _ _ _ =>
    apply forall_mem_head?_append hlayout.isDelimiter_of_mem_head?
    exact fun hnil => absurd hnil (hapart rfl)

/-! ### Every source lays out lexemes -/

theorem Layout.append {layout later : List UInt8} (hlayout : Layout layout) (hlater : Layout later) :
    Layout (layout ++ later) := by
  induction hlayout with
  | nil => exact hlater
  | blank hblank _ ih => exact .blank hblank ih
  | newline _ ih => exact .newline ih
  | comment htext _ ih =>
    rw [List.cons_append, List.append_assoc]
    exact .comment htext ih

/-- After more layout, words do not touch. -/
theorem LaidOut.prepend {layout source : List UInt8} {lexemes : List Lexeme} (hlaid : LaidOut false lexemes source)
    (hlayout : Layout layout) (hne : layout ≠ []) (afterWord : Bool) : LaidOut afterWord lexemes (layout ++ source) := by
  cases hlaid with
  | stop hlater => exact .stop (hlayout.append hlater)
  | openComment hlater htext =>
    rw [← List.append_assoc]
    exact .openComment (hlayout.append hlater) htext
  | punctuation hlater hkind hrest =>
    rw [← List.append_assoc]
    exact .punctuation (hlayout.append hlater) hkind hrest
  | word hlater _ hbytes hplain hrest =>
    rw [← List.append_assoc]
    exact .word (hlayout.append hlater) (fun _ => List.append_ne_nil_of_left_ne_nil hne _) hbytes hplain hrest

/-- A word goes on as long as no byte ends it. -/
theorem LaidOut.takeWord {byte : UInt8} {rest : List UInt8} {lexemes : List Lexeme}
    (hlaid : LaidOut true lexemes (rest.dropWhile (!isDelimiter ·))) (hbyte : isDelimiter byte = false) :
    LaidOut false (.word (byte :: rest.takeWhile (!isDelimiter ·)) :: lexemes) (byte :: rest) := by
  have hplain : ∀ other ∈ byte :: rest.takeWhile (!isDelimiter ·), isDelimiter other = false := by
    refine List.forall_mem_cons.2 ⟨hbyte, ?_⟩
    intro other hmem
    simpa using List.mem_takeWhile_imp hmem
  have hword : LaidOut false _ _ := .word .nil (by simp) (List.cons_ne_nil _ _) hplain hlaid
  rwa [List.nil_append, List.cons_append, List.takeWhile_append_dropWhile] at hword

/-- By induction on the number of bytes. The cases are those of the first byte. -/
theorem exists_laidOut_of_head? (afterWord : Bool) (source : List UInt8)
    (hhead : afterWord = true → ∀ byte ∈ source.head?, isDelimiter byte = true) :
    ∃ lexemes, LaidOut afterWord lexemes source := by
  induction hlength : source.length using Nat.strongRecOn generalizing afterWord source with
  | _ length ih =>
    cases source with
    | nil => exact ⟨[], .stop .nil⟩
    | cons byte rest =>
      have hrest : rest.length < length := hlength ▸ Nat.lt_succ_self rest.length
      by_cases hblank : isBlank byte = true
      · obtain ⟨lexemes, hlaid⟩ := ih _ hrest false rest (by simp) rfl
        exact ⟨lexemes, hlaid.prepend (.blank hblank .nil) (List.cons_ne_nil _ _) afterWord⟩
      by_cases hnewline : byte = newline
      · obtain ⟨lexemes, hlaid⟩ := ih _ hrest false rest (by simp) rfl
        exact ⟨lexemes, hnewline ▸ hlaid.prepend (.newline .nil) (List.cons_ne_nil _ _) afterWord⟩
      by_cases hmarker : byte = commentMarker
      · subst hmarker
        by_cases hends : newline ∈ rest
        · obtain ⟨text, later, rfl, htext⟩ := List.eq_append_cons_of_mem hends
          have hlater : later.length < length := by
            rw [List.length_append, List.length_cons] at hrest
            omega
          obtain ⟨lexemes, hlaid⟩ := ih _ hlater false later (by simp) rfl
          have hcomment := hlaid.prepend (.comment htext .nil) (List.cons_ne_nil _ _) afterWord
          rw [List.cons_append, List.append_assoc] at hcomment
          exact ⟨lexemes, hcomment⟩
        · exact ⟨[], .openComment .nil hends⟩
      cases hkind : Kind.ofPunctuation? byte with
      | some kind =>
        obtain ⟨lexemes, hlaid⟩ := ih _ hrest false rest (by simp) rfl
        exact ⟨_, .punctuation .nil hkind hlaid⟩
      | none =>
        have hbyte : isDelimiter byte = false :=
          (isDelimiter_eq_false_iff byte).2 ⟨Bool.eq_false_iff.2 hblank, hnewline, hmarker, hkind⟩
        have hlater : (rest.dropWhile (!isDelimiter ·)).length < length :=
          Nat.lt_of_le_of_lt (List.length_dropWhile_le _ rest) hrest
        obtain ⟨lexemes, hlaid⟩ := ih _ hlater true (rest.dropWhile (!isDelimiter ·)) (fun _ byte hmem => by
          simpa using Scanner.eq_false_of_mem_head?_dropWhile hmem) rfl
        have hapart : afterWord = false := by
          apply Bool.eq_false_iff.2
          intro hafter
          rw [hhead hafter byte rfl] at hbyte
          contradiction
        exact ⟨_, hapart ▸ hlaid.takeWord hbyte⟩

theorem exists_laidOut (source : List UInt8) : ∃ lexemes, LaidOut false lexemes source :=
  exists_laidOut_of_head? false source (by simp)

/-! ### Passing over layout -/

theorem dropWhile_isBlank_eq_self {bytes : List UInt8} (hbytes : ∀ byte ∈ bytes.head?, isBlank byte = false) :
    bytes.dropWhile isBlank = bytes := by
  cases bytes with
  | nil => rfl
  | cons byte rest => exact List.dropWhile_cons_of_neg (by simp [hbytes byte rfl])

namespace Scanner

variable {scanner : Scanner} {text layout later : List UInt8}

/-- The scanner can go on from the rest without returning a token. -/
def PassesTo (scanner : Scanner) (rest : List UInt8) : Prop :=
  ∃ scanner', scanner.Returns [] scanner' ∧ scanner'.rest = rest ∧ scanner'.index = scanner.index

theorem passesTo_rest (hunfinished : scanner.finished = false) : scanner.PassesTo scanner.rest :=
  ⟨scanner, returns_nil hunfinished, rfl, rfl⟩

theorem passesTo_dropWhile (hunfinished : scanner.finished = false) :
    scanner.PassesTo (scanner.rest.dropWhile isBlank) := by
  cases hrest : scanner.rest with
  | nil => exact ⟨scanner, returns_nil hunfinished, hrest, rfl⟩
  | cons byte following =>
    cases hblank : isBlank byte with
    | false =>
      rw [List.dropWhile_cons_of_neg (by simp [hblank]), ← hrest]
      exact passesTo_rest hunfinished
    | true =>
      rw [List.dropWhile_cons_of_pos hblank]
      exact ⟨_, returns_advance hunfinished (advance_of_isBlank hrest hblank) hunfinished, rfl, rfl⟩

theorem PassesTo.trans {scanner' : Scanner} {rest : List UInt8} (hreturns : scanner.Returns [] scanner')
    (hindex : scanner'.index = scanner.index) (hpasses : scanner'.PassesTo rest) : scanner.PassesTo rest := by
  obtain ⟨last, hlast, hrest, hlastIndex⟩ := hpasses
  exact ⟨last, hreturns.trans hlast, hrest, hlastIndex.trans hindex⟩

theorem passesTo_of_comment (hunfinished : scanner.finished = false)
    (hrest : scanner.rest = commentMarker :: (text ++ later)) (htext : newline ∉ text)
    (hlater : ∀ byte ∈ later.head?, byte = newline) : scanner.PassesTo later := by
  have hinside : ∀ byte ∈ text, (byte != newline) = true := by
    intro byte hmem
    rw [bne_iff_ne]
    rintro rfl
    exact htext hmem
  have hends : later.dropWhile (· != newline) = later := by
    cases later with
    | nil => rfl
    | cons byte rest => exact List.dropWhile_cons_of_neg (by simp [hlater byte rfl])
  refine ⟨_, returns_advance hunfinished (advance_of_marker hrest) hunfinished, ?_, rfl⟩
  change (text ++ later).dropWhile (· != newline) = later
  rw [List.dropWhile_append_of_pos hinside, hends]

/-- By induction on the layout, of which the blanks at the beginning have been passed over already:
a round does not stop before the last one of them. -/
theorem passesTo_of_dropWhile (hlayout : Layout layout) (hlater : ∀ byte ∈ later.head?, isBlank byte = false)
    (hunfinished : scanner.finished = false) (hrest : scanner.rest = (layout ++ later).dropWhile isBlank) :
    scanner.PassesTo later := by
  induction hlayout generalizing scanner with
  | nil =>
    rw [List.nil_append, dropWhile_isBlank_eq_self hlater] at hrest
    exact hrest ▸ passesTo_rest hunfinished
  | blank hblank _ ih =>
    rw [List.cons_append, List.dropWhile_cons_of_pos hblank] at hrest
    exact ih hunfinished hrest
  | @newline layout _ ih =>
    have hnewline : scanner.rest = newline :: (layout ++ later) := hrest
    have hreturns := returns_newline hunfinished hnewline
    obtain ⟨next, hblanks, hnext, hindex⟩ := passesTo_dropWhile hreturns.unfinished
    exact .trans (hreturns.trans hblanks) hindex (ih hblanks.unfinished hnext)
  | @comment text layout htext _ ih =>
    have hmarker : scanner.rest = commentMarker :: (text ++ newline :: (layout ++ later)) := by
      rw [hrest, List.cons_append, List.append_assoc]
      rfl
    obtain ⟨ended, hcomment, hended, hendedIndex⟩ :=
      passesTo_of_comment hunfinished hmarker htext (forall_mem_head?_cons rfl)
    have hreturns := returns_newline hcomment.unfinished hended
    obtain ⟨next, hblanks, hnext, hindex⟩ := passesTo_dropWhile hreturns.unfinished
    exact .trans ((hcomment.trans hreturns).trans hblanks) (hindex.trans hendedIndex) (ih hblanks.unfinished hnext)

theorem passesTo_of_layout (hlayout : Layout layout) (hlater : ∀ byte ∈ later.head?, isBlank byte = false)
    (hunfinished : scanner.finished = false) (hrest : scanner.rest = layout ++ later) : scanner.PassesTo later := by
  obtain ⟨next, hblanks, hnext, hindex⟩ := passesTo_dropWhile hunfinished
  rw [hrest] at hnext
  exact .trans hblanks hindex (passesTo_of_dropWhile hlayout hlater hblanks.unfinished hnext)

/-! ### Returning lexemes -/

/-- Nothing is left once layout has been passed over. -/
theorem PassesTo.tokens_eq (hpasses : scanner.PassesTo []) :
    scanner.tokens.map Token.unpositioned = tokensOf scanner.index [] := by
  obtain ⟨last, hreturns, hlast, hindex⟩ := hpasses
  rw [hreturns.tokens_eq, List.nil_append, tokens_of_rest_eq_nil hreturns.unfinished hlast, tokensOf, ← hindex]
  rfl

/-- By induction on the lexemes, each with the layout before it. -/
theorem tokens_of_laidOut {afterWord : Bool} {lexemes : List Lexeme} {source : List UInt8}
    (hlaid : LaidOut afterWord lexemes source) (hunfinished : scanner.finished = false) (hrest : scanner.rest = source) :
    scanner.tokens.map Token.unpositioned = tokensOf scanner.index lexemes := by
  induction hlaid generalizing scanner with
  | @stop _ layout hlayout =>
    rw [← List.append_nil layout] at hrest
    exact (passesTo_of_layout hlayout (by simp) hunfinished hrest).tokens_eq
  | @openComment _ _ text hlayout htext =>
    obtain ⟨next, hpassed, hnext, hindex⟩ :=
      passesTo_of_layout hlayout (forall_mem_head?_cons rfl) hunfinished hrest
    rw [← List.append_nil text] at hnext
    have hcomment := passesTo_of_comment hpassed.unfinished hnext htext (by simp)
    exact (PassesTo.trans hpassed hindex hcomment).tokens_eq
  | punctuation hlayout hkind _ ih =>
    obtain ⟨next, hpassed, hnext, hindex⟩ := passesTo_of_layout hlayout
      (forall_mem_head?_cons (isBlank_eq_false_of_ofPunctuation? hkind)) hunfinished hrest
    have htoken := returns_punctuation hpassed.unfinished hnext hkind
    rw [(hpassed.trans htoken).tokens_eq, List.map_append, ih htoken.unfinished rfl, tokensOf, ← hindex]
    rfl
  | word hlayout _ hne hplain hlater ih =>
    obtain ⟨next, hpassed, hnext, hindex⟩ :=
      passesTo_of_layout hlayout (isBlank_eq_false_of_mem_head? hne hplain) hunfinished hrest
    have htoken := returns_word hpassed.unfinished hne hplain hnext hlater.isDelimiter_of_mem_head?
    rw [(hpassed.trans htoken).tokens_eq, List.map_append, ih htoken.unfinished rfl, tokensOf, ← hindex]
    rfl

end Scanner

/-- The tokens of a source that lays out lexemes are those of the lexemes, places apart. -/
theorem LaidOut.scan_eq {lexemes : List Lexeme} {source : List UInt8} (hlaid : LaidOut false lexemes source) :
    (scan source).map Token.unpositioned = tokensOf 0 lexemes :=
  Scanner.tokens_of_laidOut hlaid rfl rfl

end GrammarCheck
