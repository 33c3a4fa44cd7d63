import GrammarCheck.Proofs.Printing.Lines
import GrammarCheck.Proofs.Reading.Shape

/-!
# Grammars that come from a source

A token that was scanned has the text of its kind: names and literals are words, and what opens a
bracket has no text. So nothing is lost of a grammar from a source when only the kinds and the words of
its tokens are kept, unless a term is missing in it.
-/

namespace GrammarCheck

/-! ### Taking places away -/

/-- The token as it is, but for its place. -/
def Token.atOrigin (token : Token) : Token := { token with position := ⟨0, 0⟩, index := 0 }

namespace Expression

mutual

/-- The expression as it is, but for the places of its tokens. -/
def atOrigin : Expression → Expression
  | .alternative branches => .alternative (atOriginAll branches)
  | .sequence terms => .sequence (atOriginAll terms)
  | .name token => .name token.atOrigin
  | .literal token => .literal token.atOrigin
  | .enclosed bracket opening body => .enclosed bracket opening.atOrigin body.atOrigin
  | .malformed found problem => .malformed found.atOrigin problem

def atOriginAll : List Expression → List Expression
  | [] => []
  | expression :: rest => expression.atOrigin :: atOriginAll rest

end

theorem atOriginAll_eq_map (expressions : List Expression) : atOriginAll expressions = expressions.map atOrigin := by
  induction expressions with
  | nil => rfl
  | cons expression rest ih => rw [atOriginAll, ih, List.map_cons]

mutual

theorem render_atOrigin : ∀ expression : Expression, expression.atOrigin.render = expression.render
  | .alternative branches => by rw [atOrigin, render, render, renderAll_atOriginAll branches]
  | .sequence terms => by rw [atOrigin, render, render, renderAll_atOriginAll terms]
  | .name _ => rfl
  | .literal _ => rfl
  | .enclosed _ _ body => by rw [atOrigin, render, render, render_atOrigin body]
  | .malformed .. => rfl

theorem renderAll_atOriginAll : ∀ expressions : List Expression, renderAll (atOriginAll expressions) = renderAll expressions
  | [] => rfl
  | expression :: rest => by
    rw [atOriginAll, renderAll, renderAll, render_atOrigin expression, renderAll_atOriginAll rest]

end

end Expression

namespace Production

def atOrigin (production : Production) : Production :=
  ⟨production.name.atOrigin, production.expression.map Expression.atOrigin⟩

theorem render_atOrigin (production : Production) : production.atOrigin.render = production.render := by
  obtain ⟨name, expression⟩ := production
  cases expression with
  | none => rfl
  | some expression =>
    exact congrArg (fun text => s!"{name.spelling} = {text} .") expression.render_atOrigin

end Production

namespace Grammar

/-- The grammar as it is, but for the places of its tokens. -/
def atOrigin (grammar : Grammar) : Grammar where
  entries := grammar.entries.map fun entry => (entry.1, entry.2.atOrigin)
  ordered := List.pairwise_map.2 grammar.ordered

theorem render_atOrigin (grammar : Grammar) : grammar.atOrigin.render = grammar.render := by
  rw [render, render, productions, atOrigin, productions, List.map_map, List.map_map, List.map_map]
  congr 1
  apply List.map_congr_left
  intro entry _
  exact congrArg (· ++ "\n") entry.2.render_atOrigin

end Grammar

/-! ### Tokens that were scanned -/

theorem Token.unplaced_eq_atOrigin {token : Token} (hkind : token.kind = .nonTerminal ∨ token.kind = .terminal) :
    token.unplaced = token.atOrigin :=
  if_pos hkind

/-- The text of the token is that of its kind, as far as expressions keep such tokens. -/
structure Token.IsScanned (token : Token) : Prop where
  isWord : token.kind = .nonTerminal ∨ token.kind = .terminal → IsWord token.kind token.text
  text_eq_nil : ∀ bracket, token.kind = .opening bracket → token.text = []

theorem Token.isScanned_of_endOfInput {token : Token} (hkind : token.kind = .endOfInput) : token.IsScanned :=
  ⟨by simp [hkind], by simp [hkind]⟩

section Scanned

variable {source : List UInt8}

theorem IsRun.isDelimiter_eq_false {start stop : Nat} (hrun : IsRun source start stop) :
    ∀ byte ∈ (source.drop start).take (stop - start), isDelimiter byte = false := by
  intro byte hmem
  obtain ⟨distance, hbyte⟩ := List.mem_iff_getElem?.1 hmem
  obtain ⟨hdistance, hat⟩ : distance < stop - start ∧ source[start + distance]? = some byte := by
    rw [List.getElem?_take] at hbyte
    split at hbyte
    · next hdistance => exact ⟨hdistance, by rwa [List.getElem?_drop] at hbyte⟩
    · contradiction
  obtain ⟨byte', hbyte', hdelimiter⟩ := (hrun.plain (start + distance) (by omega) (by omega)).exists_byte
  rw [hat, Option.some.injEq] at hbyte'
  rwa [hbyte']

theorem IsRun.text_ne_nil {start stop : Nat} (hrun : IsRun source start stop) :
    (source.drop start).take (stop - start) ≠ [] := by
  obtain ⟨byte, hbyte, _⟩ := hrun.plain start (Nat.le_refl _) hrun.nonempty
  have hstart : start < source.length := (List.getElem?_eq_some_iff.1 hbyte).1
  have hnonempty := hrun.nonempty
  apply List.ne_nil_of_length_pos
  rw [List.length_take, List.length_drop]
  omega

theorem Piece.Occurs.isScanned {piece : Piece} (hoccurs : piece.Occurs source) (index : Nat) :
    (piece.token source index).IsScanned := by
  cases hoccurs with
  | @punctuation offset byte kind _ hkind =>
    refine ⟨?_, fun _ _ => rfl⟩
    intro (hword : kind = .nonTerminal ∨ kind = .terminal)
    have hchar := (Kind.ofPunctuation?_eq_some_iff byte kind).1 hkind
    rcases hword with rfl | rfl <;> contradiction
  | @word start stop kind hrun hkind =>
    have hof := hkind.eq_ofWord
    refine ⟨fun _ => (Scanner.isWord_iff _ _).2 ⟨hrun.text_ne_nil, hrun.isDelimiter_eq_false, hof.symm⟩, ?_⟩
    intro bracket (hopening : kind = .opening bracket)
    rw [hof] at hopening
    rcases Kind.ofWord_cases ((source.drop start).take (stop - start)) with hword | hword | hword <;>
      rw [hword] at hopening <;> contradiction

theorem isScanned_of_mem_scan {token : Token} (hmem : token ∈ scan source) : token.IsScanned := by
  obtain ⟨piece, hpiece, htoken⟩ := exists_piece_of_mem_scan hmem
  rw [← htoken]
  rcases hpiece with hoccurs | rfl
  · exact hoccurs.isScanned token.index
  · exact Token.isScanned_of_endOfInput rfl

end Scanned

/-! ### Productions of a source -/

namespace Expression

/-- Scanned tokens of the kinds that belong in their places, with missing terms or without. The name of
the production may be any token. -/
def Leaves.scanned (missing : Prop) : Leaves where
  heading token := token.IsScanned
  name token := token.kind = .nonTerminal ∧ token.IsScanned
  literal token := token.kind = .terminal ∧ token.IsScanned
  opening bracket token := token.kind = .opening bracket ∧ token.IsScanned
  malformed _ _ := missing

variable {leaves leaves' : Leaves} {level : Level} {expression : Expression}

/-- A shape is kept by other conditions on the leaves if the leaves that are there meet them. -/
theorem Shaped.imp (hshaped : expression.Shaped leaves level) (hname : ∀ token, leaves.name token → leaves'.name token)
    (hliteral : ∀ token, leaves.literal token → leaves'.literal token)
    (hopening : ∀ bracket token, leaves.opening bracket token → leaves'.opening bracket token)
    (hmalformed : ∀ found problem, .malformed found problem ∈ expression.parts → leaves'.malformed found problem) :
    expression.Shaped leaves' level := by
  induction hshaped with
  | name htoken => exact .name (hname _ htoken)
  | literal htoken => exact .literal (hliteral _ htoken)
  | enclosed hbracket _ ih =>
    refine .enclosed (hopening _ _ hbracket) (ih ?_)
    exact fun found problem hmem => hmalformed found problem (mem_parts_enclosed.2 (.inr hmem))
  | malformed hlevel _ => exact .malformed hlevel (hmalformed _ _ (mem_parts_self _))
  | sequence hlevel hlength _ ih =>
    refine .sequence hlevel hlength fun term hterm => ih term hterm ?_
    exact fun found problem hmem => hmalformed found problem (mem_parts_sequence.2 (.inr ⟨term, hterm, hmem⟩))
  | alternative hlength _ ih =>
    refine .alternative hlength fun branch hbranch => ih branch hbranch ?_
    exact fun found problem hmem => hmalformed found problem (mem_parts_alternative.2 (.inr ⟨branch, hbranch, hmem⟩))

/-- Only places are lost when the kinds and the words of scanned tokens are kept. -/
theorem Shaped.unplaced_eq_atOrigin (hshaped : expression.Shaped (.scanned False) level) :
    expression.unplaced = expression.atOrigin := by
  induction hshaped with
  | name htoken => rw [unplaced, atOrigin, Token.unplaced_eq_atOrigin (.inl htoken.1)]
  | literal htoken => rw [unplaced, atOrigin, Token.unplaced_eq_atOrigin (.inr htoken.1)]
  | @enclosed level bracket opening body hopening _ ih =>
    rw [unplaced, atOrigin, ih, Token.atOrigin, hopening.1, hopening.2.text_eq_nil bracket hopening.1]
    rfl
  | malformed _ hmissing => exact hmissing.elim
  | sequence _ _ _ ih => rw [unplaced_sequence, atOrigin, atOriginAll_eq_map, List.map_congr_left ih]
  | alternative _ _ ih => rw [unplaced_alternative, atOrigin, atOriginAll_eq_map, List.map_congr_left ih]

end Expression

namespace Production

/-- The right-hand side and what stands in it at any depth. -/
def parts (production : Production) : List Expression := production.expression.elim [] Expression.parts

/-- No term is missing in the production, at any depth. -/
def IsComplete (production : Production) : Prop := ∀ found problem, .malformed found problem ∉ production.parts

variable {production : Production}

theorem Shaped.complete (hshaped : production.Shaped (.scanned True)) (hcomplete : production.IsComplete) :
    production.Shaped (.scanned False) := by
  refine ⟨hshaped.heading, ?_⟩
  intro expression hexpression
  refine (hshaped.expression expression hexpression).imp (fun _ => id) (fun _ => id) (fun _ _ => id) ?_
  intro found problem hmem
  apply hcomplete found problem
  rwa [parts, hexpression]

theorem Shaped.canonical (hkind : production.name.kind = .nonTerminal) (hshaped : production.Shaped (.scanned False)) :
    production.Shaped .canonical := by
  have hword {token : Token} {kind : Kind} (hscanned : token.kind = kind ∧ token.IsScanned)
      (hcases : kind = .nonTerminal ∨ kind = .terminal) : token.kind = kind ∧ IsWord kind token.text :=
    ⟨hscanned.1, hscanned.1 ▸ hscanned.2.isWord (hscanned.1.symm ▸ hcases)⟩
  refine ⟨hword ⟨hkind, hshaped.heading⟩ (.inl rfl), ?_⟩
  intro expression hexpression
  have hwhole := hshaped.expression expression hexpression
  refine hwhole.imp (fun _ htoken => hword htoken (.inl rfl)) (fun _ htoken => hword htoken (.inr rfl))
    (fun _ _ _ => trivial) ?_
  intro found problem hmem
  obtain ⟨level, hpart⟩ := hwhole.of_mem_parts hmem
  cases hpart with
  | malformed _ hmissing => exact hmissing

theorem Shaped.unplaced_eq_atOrigin (hkind : production.name.kind = .nonTerminal)
    (hshaped : production.Shaped (.scanned False)) : production.unplaced = production.atOrigin := by
  obtain ⟨name, expression⟩ := production
  rw [unplaced, atOrigin, Token.unplaced_eq_atOrigin (.inl hkind)]
  cases expression with
  | none => rfl
  | some expression => rw [Option.map_some, Option.map_some, (hshaped.expression expression rfl).unplaced_eq_atOrigin]

theorem Shaped.isComplete (hshaped : production.Shaped .fitting) : production.IsComplete := by
  intro found problem hmem
  obtain ⟨name, expression⟩ := production
  cases expression with
  | none => contradiction
  | some expression =>
    obtain ⟨level, hpart⟩ := (hshaped.expression expression rfl).of_mem_parts hmem
    cases hpart with
    | malformed _ hmissing => exact hmissing

end Production

namespace Reading

theorem shaped_of_mem_productions {source : List UInt8} {production : Production}
    (hmem : production ∈ (ofSource source).grammar.productions) :
    production.name.kind = .nonTerminal ∧ production.Shaped (.scanned True) := by
  have hscanned : ∀ token ∈ (TokenStream.ofTokens (scan source)).stop :: (TokenStream.ofTokens (scan source)).body,
      token.IsScanned :=
    TokenStream.forall_mem_ofTokens (fun _ => Token.isScanned_of_endOfInput) fun _ => isScanned_of_mem_scan
  have hall : (Expression.Leaves.scanned True).AdmitsAll
      ((TokenStream.ofTokens (scan source)).stop :: (TokenStream.ofTokens (scan source)).body)
      (TokenStream.ofTokens (scan source)).events := by
    refine ⟨hscanned, ?_, fun _ _ _ _ => trivial⟩
    intro token htoken
    exact ⟨fun hkind => ⟨hkind, hscanned token htoken⟩, fun hkind => ⟨hkind, hscanned token htoken⟩,
      fun _ hkind => ⟨hkind, hscanned token htoken⟩⟩
  obtain ⟨⟨key, other⟩, hentry, rfl⟩ := List.mem_map.1 hmem
  exact (shaped_of_find? hall (Grammar.find?_eq_some_iff.2 hentry)).2

/-- The entries of a grammar from a source are its productions under their names. -/
theorem entries_ofSource (source : List UInt8) :
    (ofSource source).grammar.entries = (ofSource source).grammar.productions.map Production.entry := by
  rw [Grammar.productions, List.map_map]
  refine (List.map_id _).symm.trans (List.map_congr_left ?_)
  intro entry hmem
  obtain ⟨_, hkey⟩ := find?_ofTokens_eq_some_iff.1 (Grammar.find?_eq_some_iff.2 hmem)
  exact Prod.ext hkey.symm rfl

end Reading

end GrammarCheck
