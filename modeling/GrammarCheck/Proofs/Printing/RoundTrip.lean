import GrammarCheck.Proofs.Printing.Lines
import GrammarCheck.Proofs.Reading.Acceptance

/-!
# Reading undoes printing

The text of a canonical grammar is read without a diagnostic, and what is read is the grammar, places
apart. Scanning returns the tokens that printing wrote, they spell productions that differ from the
printed ones in their places only, and the productions come in the order of their keys.
-/

namespace GrammarCheck

/-- The tokens spell the placed productions. These are the given ones but for their places, and each
begins a line, from the given line on. -/
structure Lists (productions : List Production) (line : Nat) (tokens : List Token) (placed : List Production) :
    Prop where
  shaped : ∀ production ∈ placed, production.Shaped .fitting
  toTokens_eq : placed.flatMap Production.toTokens = tokens.map Token.kept
  unplaced_eq : placed.map Production.unplaced = productions.map Production.unplaced
  position_eq : ∀ (number : Nat) (production : Production), placed[number]? = some production →
    production.name.position = ⟨line + number, 1⟩
  unended : ∀ token ∈ tokens, token.isEndOfInput = false

theorem lists_nil (line : Nat) : Lists [] line [] [] where
  shaped := by simp
  toTokens_eq := rfl
  unplaced_eq := rfl
  position_eq := by simp
  unended := by simp

theorem Token.Writable.isEndOfInput_eq_false {token : Token} (hwritable : token.Writable) :
    token.isEndOfInput = false := by
  apply Bool.eq_false_iff.2
  intro hend
  have hkind : token.kind = .endOfInput := eq_of_beq hend
  have hcases := hwritable.punctuation_or_word
  rw [hkind] at hcases
  rcases hcases with hpunctuation | ⟨hnonTerminal | hterminal, _⟩ <;> contradiction

theorem Production.Shaped.isEndOfInput_eq_false {production : Production} (hshaped : production.Shaped .canonical)
    {tokens : List Token} (htokens : tokens.map Token.unplaced = production.unplaced.toTokens) :
    ∀ token ∈ tokens, token.isEndOfInput = false := by
  intro token hmem
  have hunplaced : token.unplaced ∈ production.unplaced.toTokens := htokens ▸ List.mem_map_of_mem hmem
  rw [toTokens_eq_openTokens, List.mem_append, List.mem_singleton] at hunplaced
  have hwritable : token.unplaced.Writable := by
    rcases hunplaced with hopen | hstop
    · exact hshaped.writable _ hopen
    · exact hstop ▸ Token.writable_bare rfl
  have hend := hwritable.isEndOfInput_eq_false
  rwa [Token.isEndOfInput, Token.kind_unplaced] at hend

theorem Lists.cons {production : Production} {productions placed : List Production} {line : Nat} {name : Token}
    {others tokens : List Token} (hshaped : production.Shaped .canonical)
    (hfirst : (name :: others).map Token.unplaced = production.unplaced.toTokens) (hposition : name.position = ⟨line, 1⟩)
    (hrest : Lists productions (line + 1) tokens placed) :
    ∃ first, Lists (production :: productions) line (name :: others ++ tokens) (first :: placed) := by
  obtain ⟨first, hfitting, hkept, hunplaced⟩ := hshaped.exists_placed Expression.Leaves.areWords_canonical hfirst
  have hname : first.name = name := by
    have hhead : first.name = name.kept := (List.cons.inj hkept).1
    have hkind : first.name.kind = .nonTerminal := hfitting.heading
    rw [hhead, Token.kind_kept] at hkind
    rw [hhead, Token.kept_of_isKept (by rw [hkind]; rfl)]
  refine ⟨first, ?_, ?_, ?_, ?_, ?_⟩
  · exact List.forall_mem_cons.2 ⟨hfitting, hrest.shaped⟩
  · rw [List.flatMap_cons, hkept, hrest.toTokens_eq, List.map_append]
  · rw [List.map_cons, List.map_cons, hunplaced, hrest.unplaced_eq]
  · intro number other hother
    cases number with
    | zero =>
      obtain rfl : first = other := Option.some.inj hother
      rw [hname, hposition]
      rfl
    | succ number =>
      rw [hrest.position_eq number other hother, Nat.add_right_comm]
      rfl
  · intro token hmem
    rcases List.mem_append.1 hmem with hmem | hmem
    · exact hshaped.isEndOfInput_eq_false hfirst token hmem
    · exact hrest.unended token hmem

/-- By induction on the productions, each of which is a line. -/
theorem Scanner.exists_lists {scanner : Scanner} {productions : List Production} (hunfinished : scanner.finished = false)
    (hshaped : ∀ production ∈ productions, production.Shaped .canonical) (hcolumn : scanner.position.column = 1)
    (hrest : scanner.rest = productions.flatMap fun production => Utf8.encode (production.render ++ "\n")) :
    ∃ tokens placed scanner', scanner.Returns tokens scanner' ∧ scanner'.rest = [] ∧
      Lists productions scanner.line tokens placed := by
  induction productions generalizing scanner with
  | nil => exact ⟨[], [], scanner, returns_nil hunfinished, hrest, lists_nil scanner.line⟩
  | cons production rest ih =>
    obtain ⟨hproduction, hothers⟩ := List.forall_mem_cons.1 hshaped
    obtain ⟨name, others, next, hline, hunplaced, hposition, hnextRest, hnext⟩ :=
      exists_returns_line hunfinished hproduction hrest
    obtain ⟨tokens, placed, last, hreturns, hlast, hlists⟩ :=
      ih hline.unfinished hothers (congrArg Position.column hnext) hnextRest
    have hnextLine : next.line = scanner.line + 1 := congrArg Position.line hnext
    have hstart : name.position = ⟨scanner.line, 1⟩ := by
      rw [hposition, ← hcolumn]
      rfl
    rw [hnextLine] at hlists
    obtain ⟨first, hall⟩ := hlists.cons hproduction hunplaced hstart
    exact ⟨name :: others ++ tokens, first :: placed, last, hline.trans hreturns, hlast, hall⟩

namespace Reading

/-- Productions in the order of their names are all added, and make the entries of the grammar. -/
theorem ofEvents_of_pairwise {productions : List Production}
    (hnames : ∀ production ∈ productions, production.name.kind = .nonTerminal)
    (hordered : (productions.map (·.name.spelling)).Pairwise (· < ·)) :
    (ofEvents .empty (productions.map .production)).diagnostics = [] ∧
      (ofEvents .empty (productions.map .production)).grammar.entries =
        productions.map fun production => (production.name.spelling, production) := by
  have hnodup : (productions.map (·.name.spelling)).Nodup := by
    apply hordered.imp
    intro earlier later hlt heq
    exact String.lt_irrefl later (heq ▸ hlt)
  have hnone : (ofEvents .empty (productions.map .production)).diagnostics = [] :=
    (diagnostics_ofEvents_eq_nil_iff hnames .empty).2 ⟨hnodup, fun _ _ => Grammar.find?_empty _⟩
  refine ⟨hnone, ?_⟩
  obtain ⟨-, -, hfind⟩ := ofEvents_productions hnames hnone
  have hentries : (productions.map fun production => (production.name.spelling, production)).Pairwise (·.1 < ·.1) := by
    rw [List.pairwise_map] at hordered ⊢
    exact hordered
  have hgrammar : (ofEvents .empty (productions.map .production)).grammar = ⟨_, hentries⟩ := by
    apply Grammar.ext_find?
    intro key
    apply Option.ext
    intro production
    rw [hfind, Grammar.find?_empty, Grammar.find?_eq_some_iff, List.mem_map]
    constructor
    · intro hcases
      rcases hcases with hnone | ⟨hmem, rfl⟩
      · contradiction
      · exact ⟨production, hmem, rfl⟩
    · intro ⟨other, hmem, hpair⟩
      obtain ⟨hkey, rfl⟩ := Prod.mk.inj hpair
      exact .inr ⟨hmem, hkey⟩
  rw [hgrammar]

end Reading

/-! ### Canonical grammars -/

namespace Grammar

theorem encode_render (grammar : Grammar) :
    Utf8.encode grammar.render =
      grammar.productions.flatMap fun production => Utf8.encode (production.render ++ "\n") := by
  rw [render, Utf8.encode_join, List.flatMap_map]

theorem Canonical.shaped_productions {grammar : Grammar} (hcanonical : grammar.Canonical) :
    ∀ production ∈ grammar.productions, production.Shaped .canonical := by
  intro production hmem
  obtain ⟨entry, hentry, rfl⟩ := List.mem_map.1 hmem
  exact hcanonical.shaped entry hentry

theorem Canonical.keys_eq {grammar : Grammar} (hcanonical : grammar.Canonical) :
    grammar.keys = grammar.productions.map (·.name.spelling) := by
  rw [keys, productions, List.map_map]
  exact List.map_congr_left hcanonical.key_eq

end Grammar

/-- Productions that differ in their places only have the same names. -/
theorem map_spelling_eq_of_unplaced {left right : List Production}
    (hleft : ∀ production ∈ left, production.name.kind = .nonTerminal)
    (hright : ∀ production ∈ right, production.name.kind = .nonTerminal)
    (hunplaced : left.map Production.unplaced = right.map Production.unplaced) :
    left.map (·.name.spelling) = right.map (·.name.spelling) := by
  have hspelling {productions : List Production}
      (hnames : ∀ production ∈ productions, production.name.kind = .nonTerminal) :
      productions.map (·.name.spelling) = (productions.map Production.unplaced).map (·.name.spelling) := by
    rw [List.map_map]
    exact List.map_congr_left fun production hmem => (Token.spelling_unplaced (hnames production hmem)).symm
  rw [hspelling hleft, hspelling hright, hunplaced]

/-- What is printed for a canonical grammar is read without a diagnostic, as the same productions
under the same keys. The first production is on the first line, and so on. -/
theorem Reading.ofSource_encode_render {grammar : Grammar} (hcanonical : grammar.Canonical) :
    (ofSource (Utf8.encode grammar.render)).diagnostics = [] ∧
      (ofSource (Utf8.encode grammar.render)).grammar.keys = grammar.keys ∧
      (ofSource (Utf8.encode grammar.render)).grammar.productions.map Production.unplaced =
        grammar.productions.map Production.unplaced ∧
      ∀ (number : Nat) (production : Production),
        (ofSource (Utf8.encode grammar.render)).grammar.productions[number]? = some production →
          production.name.position = ⟨number + 1, 1⟩ := by
  obtain ⟨tokens, placed, last, hreturns, hlast, hlists⟩ :=
    Scanner.exists_lists (show (Scanner.start (Utf8.encode grammar.render)).finished = false from rfl)
      hcanonical.shaped_productions rfl grammar.encode_render
  -- the tokens that were written are all tokens but the end of input
  have hscan : scan (Utf8.encode grammar.render) = tokens ++ [last.token .endOfInput []] := by
    rw [scan, hreturns.tokens_eq, Scanner.tokens_of_not_finished hreturns.unfinished,
      Scanner.advance_of_rest_eq_nil hlast, Scanner.tokens]
    rfl
  have hstream := ofTokens_concat_stop hlists.unended (show (last.token .endOfInput []).isEndOfInput = true from rfl)
  have hevents : (TokenStream.mk tokens (last.token .endOfInput []) []).events = placed.map .production :=
    TokenStream.events_eq_of_toTokens hlists.shaped hlists.toTokens_eq
  have hplaced : ∀ production ∈ placed, production.name.kind = .nonTerminal :=
    fun production hmem => (hlists.shaped production hmem).heading
  have hgiven : ∀ production ∈ grammar.productions, production.name.kind = .nonTerminal :=
    fun production hmem => (hcanonical.shaped_productions production hmem).heading.1
  have hspelling : placed.map (·.name.spelling) = grammar.keys := by
    rw [hcanonical.keys_eq]
    exact map_spelling_eq_of_unplaced hplaced hgiven hlists.unplaced_eq
  have hordered : (placed.map (·.name.spelling)).Pairwise (· < ·) := by
    rw [hspelling, Grammar.keys, List.pairwise_map]
    exact grammar.ordered
  obtain ⟨hdiagnostics, hentries⟩ := ofEvents_of_pairwise hplaced hordered
  have hreading : ofSource (Utf8.encode grammar.render) =
      { ofEvents .empty (placed.map .production) with
        diagnostics := (ofEvents .empty (placed.map .production)).diagnostics ++ [] } := by
    rw [ofSource, hscan, ofTokens, hstream, hevents]
    rfl
  have hproductions : (ofSource (Utf8.encode grammar.render)).grammar.productions = placed := by
    rw [hreading, Grammar.productions, hentries, List.map_map]
    exact List.map_id placed
  refine ⟨?_, ?_, ?_, ?_⟩
  · rw [hreading, hdiagnostics]
    rfl
  · rw [hreading, Grammar.keys, hentries, List.map_map, ← hspelling]
    rfl
  · rw [hproductions, hlists.unplaced_eq]
  · intro number production hproduction
    rw [hproductions] at hproduction
    rw [hlists.position_eq number production hproduction, Nat.add_comm]
    rfl

/-- The grammar that prints as two lines, with an empty right-hand side on the second. -/
def Grammar.nestedBrackets : Grammar where
  entries :=
    let word (kind : Kind) (text : List UInt8) : Token := { Token.bare kind with text }
    [("a", ⟨word .nonTerminal [0x61], some (.alternative
        [.sequence [.enclosed .repetition (.bare .bar) (.literal (word .terminal [0x41])),
          .name (word .nonTerminal [0xc3, 0xa9])],
         .enclosed .option (.bare .unknown) (.enclosed .group (.bare .equals) (.name (word .nonTerminal [0x61])))])⟩),
     ("é", ⟨word .nonTerminal [0xc3, 0xa9], none⟩)]
  ordered := by decide

theorem Reading.ofSource_encode_render_nestedBrackets :
    Grammar.nestedBrackets.Canonical ∧
      Grammar.nestedBrackets.render = "a = { A } é | [ ( a ) ] .\né = .\n" ∧
      (ofSource (Utf8.encode Grammar.nestedBrackets.render)).diagnostics = [] ∧
      (ofSource (Utf8.encode Grammar.nestedBrackets.render)).grammar.keys = ["a", "é"] := by
  have hname : IsWord .nonTerminal [0x61] :=
    (Scanner.isWord_iff _ _).2 ⟨List.cons_ne_nil _ _, List.forall_mem_singleton.2 rfl, rfl⟩
  have hliteral : IsWord .terminal [0x41] :=
    (Scanner.isWord_iff _ _).2 ⟨List.cons_ne_nil _ _, List.forall_mem_singleton.2 rfl, rfl⟩
  have hother : IsWord .nonTerminal [0xc3, 0xa9] :=
    (Scanner.isWord_iff _ _).2
      ⟨List.cons_ne_nil _ _, List.forall_mem_cons.2 ⟨rfl, List.forall_mem_singleton.2 rfl⟩, rfl⟩
  have hcanonical : Grammar.nestedBrackets.Canonical := by
    refine ⟨by decide, List.forall_mem_cons.2 ⟨⟨⟨rfl, hname⟩, ?_⟩, List.forall_mem_singleton.2 ⟨⟨rfl, hother⟩, by simp⟩⟩⟩
    intro expression hexpression
    obtain rfl := Option.some.inj hexpression
    refine .alternative (by decide) (List.forall_mem_cons.2 ⟨.sequence (by decide) (by decide) ?_,
      List.forall_mem_singleton.2 (.enclosed trivial (.enclosed trivial (.name ⟨rfl, hname⟩)))⟩)
    exact List.forall_mem_cons.2
      ⟨.enclosed trivial (.literal ⟨rfl, hliteral⟩), List.forall_mem_singleton.2 (.name ⟨rfl, hother⟩)⟩
  obtain ⟨hdiagnostics, hkeys, -, -⟩ := ofSource_encode_render hcanonical
  exact ⟨hcanonical, by decide, hdiagnostics, hkeys⟩

end GrammarCheck
