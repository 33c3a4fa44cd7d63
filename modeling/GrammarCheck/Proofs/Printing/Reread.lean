import GrammarCheck.Proofs.Printing.Missing
import GrammarCheck.Proofs.Scanning.Prefix

/-!
# Reading what was read and printed

A grammar that comes from a source prints as a text that is read as the same grammar, places apart,
unless a term is missing in it. Then the text is rejected. So whatever the source was, what is read of
its printed grammar without a problem is what was read of the source.
-/

namespace GrammarCheck

/-- What is read of the printed grammar. -/
def Grammar.reread (grammar : Grammar) : Reading := .ofSource (Utf8.encode grammar.render)

/-! ### Missing terms are rejected -/

theorem Derives.unknown_not_mem {symbol : Symbol} {kinds : List Kind} (hderives : Derives symbol kinds) :
    .unknown ∉ kinds := by
  induction hderives with
  | nonTerminal => simp
  | terminal => simp
  | enclosed bracket _ ih => simpa using ih
  | ofTerm _ ih => exact ih
  | juxtapose _ _ ihTerm ihSequence => simp [ihTerm, ihSequence]
  | ofSequence _ ih => exact ih
  | separate _ _ ihSequence ihExpression => simp [ihSequence, ihExpression]
  | emptyProduction => simp
  | production _ ih => simpa using ih

namespace Reading

/-- Tokens with an unknown one among them are not read without a problem. -/
theorem diagnostics_ne_nil_of_unknown {source : List UInt8} (hunknown : ∃ token ∈ scan source, token.kind = .unknown) :
    (ofSource source).diagnostics ≠ [] := by
  intro hnone
  obtain ⟨token, hmem, hkind⟩ := hunknown
  have hbody : token ∈ (TokenStream.ofTokens (scan source)).body := by
    obtain ⟨read, stop, hscan, hread, hstop⟩ := exists_scan_eq_concat source
    rw [hscan] at hmem ⊢
    rw [ofTokens_concat_stop hread hstop]
    refine (List.mem_append.1 hmem).resolve_right ?_
    intro hlast
    rw [← List.mem_singleton.1 hlast, Token.isEndOfInput, hkind] at hstop
    contradiction
  rw [ofSource, diagnostics_ofTokens, List.append_eq_nil_iff] at hnone
  obtain ⟨productions, _, hshaped, htokens⟩ := TokenStream.exists_productions_of_clean
    (TokenStream.kind_stop_ofTokens (scan source)) (clean_of_diagnostics_ofEvents hnone.1)
  have hspelled : token.kept ∈ productions.flatMap Production.toTokens := by
    rw [htokens]
    exact List.mem_map_of_mem hbody
  obtain ⟨production, hproduction, htoken⟩ := List.mem_flatMap.1 hspelled
  apply (hshaped production hproduction).derives.unknown_not_mem
  exact List.mem_map.2 ⟨token.kept, htoken, (Token.kind_kept token).trans hkind⟩

theorem isComplete_of_diagnostics_eq_nil {source : List UInt8}
    (hnone : (ofSource source).grammar.reread.diagnostics = []) :
    ∀ production ∈ (ofSource source).grammar.productions, production.IsComplete := by
  intro production hmem found problem hmissing
  exact diagnostics_ne_nil_of_unknown (exists_unknown_of_malformed_mem hmem hmissing) hnone

/-! ### Complete grammars are read again -/

theorem canonical_ofSource {source : List UInt8}
    (hcomplete : ∀ production ∈ (ofSource source).grammar.productions, production.IsComplete) :
    (ofSource source).grammar.Canonical := by
  refine ⟨?_, ?_⟩
  · intro entry hmem
    rw [entries_ofSource] at hmem
    obtain ⟨production, _, rfl⟩ := List.mem_map.1 hmem
    rfl
  · intro entry hmem
    have hproduction : entry.2 ∈ (ofSource source).grammar.productions := List.mem_map_of_mem hmem
    obtain ⟨hkind, hshaped⟩ := shaped_of_mem_productions hproduction
    exact (hshaped.complete (hcomplete _ hproduction)).canonical hkind

theorem map_unplaced_eq_map_atOrigin {source : List UInt8}
    (hcomplete : ∀ production ∈ (ofSource source).grammar.productions, production.IsComplete) :
    (ofSource source).grammar.productions.map Production.unplaced =
      (ofSource source).grammar.productions.map Production.atOrigin := by
  apply List.map_congr_left
  intro production hmem
  obtain ⟨hkind, hshaped⟩ := shaped_of_mem_productions hmem
  exact (hshaped.complete (hcomplete production hmem)).unplaced_eq_atOrigin hkind

/-- What is read of a printed canonical grammar are its productions at other places. -/
theorem reread_of_canonical {grammar : Grammar} (hcanonical : grammar.Canonical) :
    grammar.reread.diagnostics = [] ∧
      (∀ production ∈ grammar.reread.grammar.productions, production.Shaped .fitting) ∧
      grammar.reread.grammar.productions.map Production.unplaced = grammar.productions.map Production.unplaced := by
  obtain ⟨tokens, placed, last, hreturns, hlast, hlists⟩ :=
    Scanner.exists_lists (show (Scanner.start (Utf8.encode grammar.render)).finished = false from rfl)
      hcanonical.shaped_productions rfl grammar.encode_render
  have hscan : scan (Utf8.encode grammar.render) = tokens ++ [last.token .endOfInput []] := by
    rw [scan, hreturns.tokens_eq, Scanner.tokens_of_not_finished hreturns.unfinished,
      Scanner.advance_of_rest_eq_nil hlast, Scanner.tokens]
    rfl
  have hevents : (TokenStream.ofTokens (scan (Utf8.encode grammar.render))).events = placed.map .production := by
    rw [hscan, ofTokens_concat_stop hlists.unended rfl]
    exact TokenStream.events_eq_of_toTokens hlists.shaped hlists.toTokens_eq
  have htrailing : (TokenStream.ofTokens (scan (Utf8.encode grammar.render))).trailing = [] := by
    rw [hscan, ofTokens_concat_stop hlists.unended rfl]
  have hnames : ∀ production ∈ placed, production.name.kind = .nonTerminal :=
    fun production hmem => (hlists.shaped production hmem).heading
  have hordered : (placed.map (·.name.spelling)).Pairwise (· < ·) := by
    rw [map_spelling_eq_of_unplaced hnames
      (fun production hmem => (hcanonical.shaped_productions production hmem).heading.1) hlists.unplaced_eq,
      ← hcanonical.keys_eq, Grammar.keys, List.pairwise_map]
    exact grammar.ordered
  obtain ⟨hdiagnostics, hentries⟩ := ofEvents_of_pairwise hnames hordered
  have hproductions : grammar.reread.grammar.productions = placed := by
    rw [Grammar.reread, ofSource, grammar_ofTokens, hevents, Grammar.productions, hentries, List.map_map]
    exact List.map_id placed
  refine ⟨?_, hproductions.symm ▸ hlists.shaped, hproductions.symm ▸ hlists.unplaced_eq⟩
  rw [Grammar.reread, ofSource, diagnostics_ofTokens, hevents, htrailing, hdiagnostics]
  rfl

theorem atOrigin_eq_of_map {source other : List UInt8}
    (hproductions : (ofSource source).grammar.productions.map Production.atOrigin =
      (ofSource other).grammar.productions.map Production.atOrigin) :
    (ofSource source).grammar.atOrigin = (ofSource other).grammar.atOrigin := by
  have hentries (source : List UInt8) : (ofSource source).grammar.atOrigin.entries =
      ((ofSource source).grammar.productions.map Production.atOrigin).map Production.entry := by
    have hmap : (ofSource source).grammar.atOrigin.entries =
        (ofSource source).grammar.entries.map fun entry => (entry.1, entry.2.atOrigin) := rfl
    rw [hmap, entries_ofSource, List.map_map, List.map_map]
    rfl
  have hsame := ((hentries source).trans (congrArg _ hproductions)).trans (hentries other).symm
  generalize (ofSource source).grammar.atOrigin = left at hsame
  generalize (ofSource other).grammar.atOrigin = right at hsame
  cases left
  cases right
  congr

/-- The grammar of a source is printed as a text that is read without a problem exactly if no term is
missing in it. What is read then is the grammar, places apart, and prints as it did. -/
theorem reread_ofSource (source : List UInt8) :
    ((ofSource source).grammar.reread.diagnostics = [] ↔
      ∀ production ∈ (ofSource source).grammar.productions, production.IsComplete) ∧
    ((ofSource source).grammar.reread.diagnostics = [] →
      (ofSource source).grammar.reread.grammar.atOrigin = (ofSource source).grammar.atOrigin ∧
        (ofSource source).grammar.reread.grammar.render = (ofSource source).grammar.render) := by
  refine ⟨⟨isComplete_of_diagnostics_eq_nil, ?_⟩, ?_⟩
  · intro hcomplete
    exact (reread_of_canonical (canonical_ofSource hcomplete)).1
  · intro hnone
    have hcomplete := isComplete_of_diagnostics_eq_nil hnone
    obtain ⟨_, hshaped, hunplaced⟩ := reread_of_canonical (canonical_ofSource hcomplete)
    have hcompleteAgain : ∀ production ∈ (ofSource source).grammar.reread.grammar.productions, production.IsComplete :=
      fun production hmem => (hshaped production hmem).isComplete
    have horigin : (ofSource source).grammar.reread.grammar.atOrigin = (ofSource source).grammar.atOrigin := by
      apply atOrigin_eq_of_map
      calc (ofSource source).grammar.reread.grammar.productions.map Production.atOrigin
        _ = (ofSource source).grammar.reread.grammar.productions.map Production.unplaced :=
          (map_unplaced_eq_map_atOrigin hcompleteAgain).symm
        _ = (ofSource source).grammar.productions.map Production.unplaced := hunplaced
        _ = (ofSource source).grammar.productions.map Production.atOrigin := map_unplaced_eq_map_atOrigin hcomplete
    refine ⟨horigin, ?_⟩
    rw [← Grammar.render_atOrigin, horigin, Grammar.render_atOrigin]

theorem reread_mismatches :
    let reading := ofSource (Utf8.encode "a = [ B ) ?\nb c D .")
    reading.diagnostics.length = 3 ∧ reading.grammar.render = "a = [ B ] .\nb = D .\n" ∧
      reading.grammar.reread.diagnostics = [] ∧ reading.grammar.reread.grammar.atOrigin = reading.grammar.atOrigin := by
  intro reading
  have hnone : reading.grammar.reread.diagnostics = [] := by decide +kernel
  exact ⟨by decide +kernel, by decide +kernel, hnone, ((reread_ofSource _).2 hnone).1⟩

end Reading

end GrammarCheck
