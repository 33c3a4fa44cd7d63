import GrammarCheck.Grammar.Basic
import GrammarCheck.Proofs.Printing.Unplaced
import GrammarCheck.Proofs.Scanning.Exactness

/-!
# What is written for a grammar

A canonical grammar has the shape of one that comes from a source, and its names and literals are
words. What is printed for it are its tokens with a blank after each, and a newline instead of the
blank at the end of a production. Blanks between tokens, not around them, is how printing goes about
it, so the lemmas add the blank that follows.
-/

namespace GrammarCheck

/-! ### Words -/

/-- The text reads as one word of the kind and as nothing else. -/
def IsWord (kind : Kind) (text : List UInt8) : Prop :=
  (scan text).map (fun token => (token.kind, token.text)) = [(kind, text), (.endOfInput, [])]

section Words

variable {kind : Kind} {text : List UInt8}

theorem IsWord.exists_occurs (hword : IsWord kind text) :
    ∃ piece : Piece, piece.Occurs text ∧ piece.kind = kind ∧ piece.text = text := by
  obtain ⟨pieces, -, hmem, htokens⟩ := (Scanner.stands_start text).tokens rfl
  have hpieces : (scan text).map (fun token => (token.kind, token.text)) =
      (pieces ++ [Piece.endOfInput text]).map fun piece => (piece.kind, piece.text) := by
    conv_rhs => rw [← List.zipIdx_map_fst 0 (pieces ++ [Piece.endOfInput text]), List.map_map]
    rw [scan, htokens, List.map_map]
    rfl
  rw [hword, List.map_append] at hpieces
  have hsingle : [(kind, text)] = pieces.map fun piece => (piece.kind, piece.text) := List.append_cancel_right hpieces
  obtain ⟨piece, rfl, hpair⟩ := List.map_eq_singleton_iff.1 hsingle.symm
  obtain ⟨hkind, htext⟩ := Prod.mk.inj hpair
  exact ⟨piece, ((hmem piece).1 List.mem_cons_self).1, hkind, htext⟩

/-- A word that is all of a text has no byte that ends words. -/
theorem IsWord.plain (hword : IsWord kind text) :
    text ≠ [] ∧ (∀ byte ∈ text, isDelimiter byte = false) ∧ Kind.ofWord text = kind := by
  obtain ⟨piece, hoccurs, hkind, htext⟩ := hword.exists_occurs
  cases hoccurs with
  | punctuation hbyte =>
    obtain rfl : [] = text := htext
    contradiction
  | @word start stop kind' hrun hkind' =>
    have hstart := (Piece.Occurs.word hrun hkind').start_lt_length
    have hlength := congrArg List.length htext
    simp only [List.length_take, List.length_drop] at hstart hlength
    refine ⟨List.length_pos_iff.1 (by omega), ?_, ?_⟩
    · intro byte hbyte
      obtain ⟨offset, hoffset, hat⟩ := List.mem_iff_getElem.1 hbyte
      obtain ⟨byte', hbyte', hdelimiter⟩ := (hrun.plain offset (by omega) (by omega)).exists_byte
      rw [List.getElem?_eq_getElem hoffset, hat, Option.some.injEq] at hbyte'
      rwa [hbyte']
    · rw [← hkind, hkind'.eq_ofWord]
      exact congrArg Kind.ofWord htext.symm

theorem encode_decodeLossy_of_spelled {begins : Char → Bool} (hspelled : Spelled begins text) :
    Utf8.encode (Utf8.decodeLossy text) = text := by
  obtain ⟨first, rest, rfl, _, _⟩ := hspelled
  rw [Utf8.decodeLossy_encode]

theorem IsWord.encode_decodeLossy (hkind : kind = .nonTerminal ∨ kind = .terminal) (hword : IsWord kind text) :
    Utf8.encode (Utf8.decodeLossy text) = text := by
  obtain ⟨_, _, hof⟩ := hword.plain
  rcases hkind with rfl | rfl
  · exact encode_decodeLossy_of_spelled ((Kind.ofWord_eq_nonTerminal_iff text).1 hof)
  · exact encode_decodeLossy_of_spelled ((Kind.ofWord_eq_terminal_iff text).1 hof)

end Words

/-! ### Tokens -/

/-- The bytes of a token: its character if it is punctuation, and else its text. -/
def Token.written (token : Token) : List UInt8 :=
  match token.kind.punctuation? with
  | some c => String.utf8EncodeChar c
  | none => token.text

def space : UInt8 := 0x20

/-- The bytes of a token and the space that follows it. -/
def Token.writtenApart (token : Token) : List UInt8 := token.written ++ [space]

/-- A token without a place that is punctuation or a word, so that what is written for it is scanned
as the token again. -/
structure Token.Writable (token : Token) : Prop where
  unplaced_eq : token.unplaced = token
  punctuation_or_word : token.kind.punctuation?.isSome = true ∨
    (token.kind = .nonTerminal ∨ token.kind = .terminal) ∧ IsWord token.kind token.text

theorem Token.writable_bare {kind : Kind} (hkind : kind.punctuation?.isSome = true) : (bare kind).Writable :=
  ⟨unplaced_bare kind, .inl hkind⟩

theorem Kind.utf8EncodeChar_of_punctuation? {kind : Kind} {c : Char} (hkind : kind.punctuation? = some c) :
    ∃ byte, String.utf8EncodeChar c = [byte] ∧ Kind.ofPunctuation? byte = some kind := by
  have hascii : c.toNat < 0x80 := Kind.toNat_lt_of_punctuation? hkind
  have hbyte : (UInt8.ofNat c.toNat).toNat = c.toNat := UInt8.toNat_ofNat_of_lt' (Nat.lt_trans hascii (by decide))
  have hchar : Char.ofNat (UInt8.ofNat c.toNat).toNat = c := by rw [hbyte, Char.ofNat_toNat]
  refine ⟨UInt8.ofNat c.toNat, ?_, (Kind.ofPunctuation?_eq_some_iff _ kind).2 ?_⟩
  · have hencode := Utf8.utf8EncodeChar_one (show (UInt8.ofNat c.toNat).toNat < 0x80 by rwa [hbyte])
    rwa [hchar] at hencode
  · rw [hkind, hchar]

/-! ### Canonical grammars -/

namespace Expression

/-- Names are written as non-terminals and literals as terminals, and no term is missing. -/
def Leaves.canonical : Leaves where
  heading token := token.kind = .nonTerminal ∧ IsWord .nonTerminal token.text
  name token := token.kind = .nonTerminal ∧ IsWord .nonTerminal token.text
  literal token := token.kind = .terminal ∧ IsWord .terminal token.text
  opening _ _ := True
  malformed _ _ := False

theorem Leaves.areWords_canonical : Leaves.canonical.AreWords :=
  ⟨And.left, And.left, And.left, id⟩

end Expression

/-- Each production has its name as its key and the shape that productions of a source have. -/
structure Grammar.Canonical (grammar : Grammar) : Prop where
  key_eq : ∀ entry ∈ grammar.entries, entry.1 = entry.2.name.spelling
  shaped : ∀ entry ∈ grammar.entries, entry.2.Shaped .canonical

section Words

variable {token : Token}

theorem Token.written_unplaced_of_word (hkind : token.kind = .nonTerminal ∨ token.kind = .terminal) :
    token.unplaced.written = token.text := by
  rcases hkind with hkind | hkind
  · rw [Token.unplaced_of_nonTerminal hkind]
    rfl
  · rw [Token.unplaced_of_terminal hkind]
    rfl

theorem Token.writtenApart_unplaced (hkind : token.kind = .nonTerminal ∨ token.kind = .terminal)
    (hword : IsWord token.kind token.text) : Utf8.encode token.spelling ++ [space] = token.unplaced.writtenApart := by
  rw [Token.spelling, hword.encode_decodeLossy hkind, writtenApart, written_unplaced_of_word hkind]

theorem Token.writable_unplaced (hkind : token.kind = .nonTerminal ∨ token.kind = .terminal)
    (hword : IsWord token.kind token.text) : token.unplaced.Writable := by
  refine ⟨unplaced_unplaced token, .inr ⟨by rwa [kind_unplaced], ?_⟩⟩
  rw [kind_unplaced]
  rcases hkind with hkind | hkind
  · rw [Token.unplaced_of_nonTerminal hkind]
    exact hword
  · rw [Token.unplaced_of_terminal hkind]
    exact hword

end Words

/-! ### What is printed -/

namespace Expression

theorem renderAll_eq_map (expressions : List Expression) : renderAll expressions = expressions.map render := by
  induction expressions with
  | nil => rfl
  | cons expression rest ih => rw [renderAll, ih, List.map_cons]

theorem encode_intercalate_space {texts : List String} (hne : texts ≠ []) :
    Utf8.encode (" ".intercalate texts) ++ [space] = texts.flatMap (Utf8.encode · ++ [space]) := by
  induction texts with
  | nil => exact absurd rfl hne
  | cons text rest ih =>
    by_cases hrest : rest = []
    · rw [hrest, String.intercalate_singleton, List.flatMap_singleton]
    · rw [String.intercalate_cons_of_ne_nil hrest, Utf8.encode_append, Utf8.encode_append, List.append_assoc, ih hrest,
        List.flatMap_cons]
      rfl

theorem encode_intercalate_bar {branches : List Expression} (hne : branches ≠ [])
    (hbranches : ∀ branch ∈ branches,
      Utf8.encode branch.render ++ [space] = branch.unplaced.toTokens.flatMap Token.writtenApart) :
    Utf8.encode (" | ".intercalate (branches.map render)) ++ [space] =
      ([Token.bare .bar].intercalate (branches.map (·.unplaced.toTokens))).flatMap Token.writtenApart := by
  induction branches with
  | nil => exact absurd rfl hne
  | cons branch rest ih =>
    obtain ⟨hbranch, hothers⟩ := List.forall_mem_cons.1 hbranches
    by_cases hrest : rest = []
    · rw [hrest, List.map_singleton, List.map_singleton, String.intercalate_singleton, List.intercalate_singleton]
      exact hbranch
    · have hrender : rest.map render ≠ [] := by simpa using hrest
      have htokens : rest.map (·.unplaced.toTokens) ≠ [] := by simpa using hrest
      rw [List.map_cons, List.map_cons, String.intercalate_cons_of_ne_nil hrender,
        List.intercalate_cons_of_ne_nil htokens, Utf8.encode_append, Utf8.encode_append, List.append_assoc, ih hrest hothers,
        List.flatMap_append, List.flatMap_append, ← hbranch, List.append_assoc, List.append_assoc, List.append_assoc]
      rfl

theorem encode_renderEnclosed (bracket : Bracket) (body : String) :
    Utf8.encode (renderEnclosed bracket body) =
      (Token.bare (.opening bracket)).writtenApart ++ (Utf8.encode body ++ [space]) ++
        (Token.bare (.closing bracket)).written := by
  have hopening : Utf8.encode (toString bracket.openingChar ++ " ") = (Token.bare (.opening bracket)).writtenApart := by
    cases bracket <;> rfl
  have hclosing : Utf8.encode (toString bracket.closingChar) = (Token.bare (.closing bracket)).written := by
    cases bracket <;> rfl
  calc Utf8.encode (renderEnclosed bracket body)
    _ = Utf8.encode (toString bracket.openingChar ++ " " ++ body ++ " " ++ toString bracket.closingChar) := rfl
    _ = _ := by
      rw [Utf8.encode_append, Utf8.encode_append, Utf8.encode_append, hopening, hclosing, List.append_assoc _ _ (Utf8.encode " ")]
      rfl

variable {level : Level} {expression : Expression}

/-- What is printed for an expression, and a space, is what is written for its tokens. -/
theorem Shaped.encode_render (hshaped : expression.Shaped .canonical level) :
    Utf8.encode expression.render ++ [space] = expression.unplaced.toTokens.flatMap Token.writtenApart := by
  induction hshaped with
  | @name level token htoken =>
    rw [render, unplaced, toTokens, List.flatMap_singleton]
    exact Token.writtenApart_unplaced (.inl htoken.1) (htoken.1 ▸ htoken.2)
  | @literal level token htoken =>
    rw [render, unplaced, toTokens, List.flatMap_singleton]
    exact Token.writtenApart_unplaced (.inr htoken.1) (htoken.1 ▸ htoken.2)
  | @enclosed level bracket opening body _ _ ih =>
    rw [render, encode_renderEnclosed, ih, unplaced, toTokens, List.flatMap_cons, List.flatMap_append,
      List.flatMap_singleton, Token.writtenApart.eq_def (Token.bare (.closing bracket))]
    simp only [List.append_assoc]
  | malformed _ hproblem => exact hproblem.elim
  | @sequence level terms _ hlength _ ih =>
    have hne : terms.map render ≠ [] := by
      rw [← List.length_pos_iff, List.length_map]
      omega
    rw [render, renderAll_eq_map, encode_intercalate_space hne, unplaced_sequence, toTokens_sequence, List.flatMap_map,
      List.flatMap_map, List.flatMap_assoc]
    exact List.flatMap_congr ih
  | @alternative branches hlength _ ih =>
    have hne : branches ≠ [] := by
      rw [← List.length_pos_iff]
      omega
    rw [render, renderAll_eq_map, encode_intercalate_bar hne ih, unplaced_alternative, toTokens_alternative, List.map_map]
    rfl

theorem mem_intercalate {tokens : List (List Token)} {separator token : Token}
    (hmem : token ∈ [separator].intercalate tokens) : token = separator ∨ ∃ part ∈ tokens, token ∈ part := by
  induction tokens with
  | nil => simp at hmem
  | cons part rest ih =>
    by_cases hrest : rest = []
    · rw [hrest, List.intercalate_singleton] at hmem
      exact .inr ⟨part, List.mem_cons_self, hmem⟩
    · rw [List.intercalate_cons_of_ne_nil hrest, List.append_assoc, List.mem_append, List.mem_append,
        List.mem_singleton] at hmem
      rcases hmem with hpart | hseparator | hothers
      · exact .inr ⟨part, List.mem_cons_self, hpart⟩
      · exact .inl hseparator
      · refine (ih hothers).imp_right ?_
        intro ⟨other, hother, hmem⟩
        exact ⟨other, List.mem_cons_of_mem part hother, hmem⟩

theorem Shaped.writable (hshaped : expression.Shaped .canonical level) :
    ∀ token ∈ expression.unplaced.toTokens, token.Writable := by
  induction hshaped with
  | @name level token htoken =>
    intro other hother
    obtain rfl : other = token.unplaced := List.mem_singleton.1 hother
    exact Token.writable_unplaced (.inl htoken.1) (htoken.1 ▸ htoken.2)
  | @literal level token htoken =>
    intro other hother
    obtain rfl : other = token.unplaced := List.mem_singleton.1 hother
    exact Token.writable_unplaced (.inr htoken.1) (htoken.1 ▸ htoken.2)
  | @enclosed level bracket opening body _ _ ih =>
    intro token hmem
    rw [unplaced, toTokens, List.mem_cons, List.mem_append, List.mem_singleton] at hmem
    rcases hmem with rfl | hbody | rfl
    · exact Token.writable_bare rfl
    · exact ih token hbody
    · exact Token.writable_bare rfl
  | malformed _ hproblem => exact hproblem.elim
  | @sequence level terms _ _ _ ih =>
    intro token hmem
    rw [unplaced_sequence, toTokens_sequence, List.flatMap_map, List.mem_flatMap] at hmem
    obtain ⟨term, hterm, htoken⟩ := hmem
    exact ih term hterm token htoken
  | @alternative branches _ _ ih =>
    intro token hmem
    rw [unplaced_alternative, toTokens_alternative, List.map_map] at hmem
    rcases mem_intercalate hmem with rfl | ⟨part, hpart, htoken⟩
    · exact Token.writable_bare rfl
    · obtain ⟨branch, hbranch, rfl⟩ := List.mem_map.1 hpart
      exact ih branch hbranch token htoken

end Expression

namespace Production

/-- The tokens of a production but for the full stop. -/
def openTokens (production : Production) : List Token :=
  production.name :: .bare .equals :: production.expression.elim [] Expression.toTokens

theorem toTokens_eq_openTokens (production : Production) :
    production.toTokens = production.openTokens ++ [.bare .terminator] := rfl

/-- What is printed for a production in a grammar are its tokens and a newline. -/
theorem Shaped.encode_render {production : Production} (hshaped : production.Shaped .canonical) :
    Utf8.encode (production.render ++ "\n") =
      production.unplaced.openTokens.flatMap Token.writtenApart ++ ((Token.bare .terminator).written ++ [newline]) := by
  obtain ⟨name, expression⟩ := production
  have hname : Utf8.encode name.spelling ++ [space] = name.unplaced.writtenApart :=
    Token.writtenApart_unplaced (.inl hshaped.heading.1) (hshaped.heading.1 ▸ hshaped.heading.2)
  cases expression with
  | none =>
    calc Utf8.encode (name.spelling ++ " = ." ++ "\n")
      _ = (Utf8.encode name.spelling ++ [space]) ++ Utf8.encode "= .\n" := by
        rw [Utf8.encode_append, Utf8.encode_append, List.append_assoc, List.append_assoc]
        rfl
      _ = _ := by
        rw [hname]
        simp only [openTokens, Production.unplaced, Option.map_none, Option.elim_none, List.flatMap_cons, List.append_assoc]
        rfl
  | some expression =>
    have hexpression := (hshaped.expression expression rfl).encode_render
    calc Utf8.encode (name.spelling ++ " = " ++ expression.render ++ " ." ++ "\n")
      _ = (Utf8.encode name.spelling ++ [space]) ++ (Utf8.encode "= " ++ ((Utf8.encode expression.render ++ [space]) ++
            Utf8.encode ".\n")) := by
        simp only [Utf8.encode_append, List.append_assoc]
        rfl
      _ = _ := by
        rw [hname, hexpression]
        simp only [openTokens, Production.unplaced, Option.map_some, Option.elim_some, List.flatMap_cons, List.append_assoc]
        rfl

theorem Shaped.writable {production : Production} (hshaped : production.Shaped .canonical) :
    ∀ token ∈ production.unplaced.openTokens, token.Writable := by
  obtain ⟨name, expression⟩ := production
  intro token hmem
  rw [openTokens, List.mem_cons, List.mem_cons] at hmem
  rcases hmem with rfl | rfl | hmem
  · exact Token.writable_unplaced (.inl hshaped.heading.1) (hshaped.heading.1 ▸ hshaped.heading.2)
  · exact Token.writable_bare rfl
  · cases expression with
    | none => contradiction
    | some expression => exact (hshaped.expression expression rfl).writable token hmem

end Production

end GrammarCheck
