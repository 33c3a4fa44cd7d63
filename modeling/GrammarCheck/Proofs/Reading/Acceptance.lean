import GrammarCheck.Grammar.Lemmas
import GrammarCheck.Proofs.Reading.Spelling
import GrammarCheck.Proofs.Reading.Trees
import GrammarCheck.Proofs.Syntax.Derivation

/-!
# Which token sequences are grammars

Tokens are read without a diagnostic if and only if they are productions in a row, of which no two
have the same name, and nothing follows the end of input. What is read then are the productions, and
they spell the tokens.
-/

namespace GrammarCheck

/-! ### Token streams -/

namespace TokenStream

theorem body_ofTokens (tokens : List Token) : (ofTokens tokens).body = tokens.takeWhile (!·.isEndOfInput) := by
  unfold ofTokens
  split
  · rfl
  · next hnone =>
    have hsplit := List.takeWhile_append_dropWhile (p := (!·.isEndOfInput)) (l := tokens)
    rw [hnone, List.append_nil] at hsplit
    exact hsplit.symm

theorem trailing_ofTokens (tokens : List Token) :
    (ofTokens tokens).trailing = (tokens.dropWhile (!·.isEndOfInput)).tail := by
  unfold ofTokens
  split
  · next hsome => rw [hsome, List.tail_cons]
  · next hnone => rw [hnone, List.tail_nil]

theorem kind_stop_ofTokens (tokens : List Token) : (ofTokens tokens).stop.kind = .endOfInput := by
  unfold ofTokens
  split
  · next stop trailing hsome =>
    have hstop := List.head?_dropWhile_not (!·.isEndOfInput) tokens
    rw [hsome, List.head?_cons] at hstop
    simpa [Token.isEndOfInput] using hstop
  · rfl

/-- What holds of tokens that end the input and of all tokens in a list holds of those that are read. -/
theorem forall_mem_ofTokens {holds : Token → Prop} {tokens : List Token}
    (hstop : ∀ token : Token, token.kind = .endOfInput → holds token) (htokens : ∀ token ∈ tokens, holds token) :
    ∀ token ∈ (ofTokens tokens).stop :: (ofTokens tokens).body, holds token := by
  refine List.forall_mem_cons.2 ⟨hstop _ (kind_stop_ofTokens tokens), ?_⟩
  intro token hmem
  rw [body_ofTokens] at hmem
  exact htokens token ((List.takeWhile_sublist _).subset hmem)

variable {stream : TokenStream}

/-- A stream is free of problems if its body is, and ends between two productions. -/
theorem clean_events_iff (hstop : stream.stop.kind = .endOfInput) :
    Clean stream.events ↔ Clean (Phase.between.events stream.body) ∧ Phase.between.after stream.body = .between := by
  rw [events, clean_append, Phase.clean_finish hstop]

theorem events_eq_of_after (hafter : Phase.between.after stream.body = .between) :
    stream.events = Phase.between.events stream.body := by
  rw [events, hafter, Phase.finish, List.append_nil]

/-- A stream free of problems brings about fitting productions that spell its body. -/
theorem exists_productions_of_clean (hstop : stream.stop.kind = .endOfInput) (hclean : Clean stream.events) :
    ∃ productions : List Production, stream.events = productions.map .production ∧
      (∀ production ∈ productions, production.Shaped .fitting) ∧
      productions.flatMap Production.toTokens = stream.body.map Token.kept := by
  obtain ⟨hbody, hafter⟩ := (clean_events_iff hstop).mp hclean
  have htokens := Phase.toTokens_after hbody
  rw [hafter] at htokens
  refine ⟨productionsOf (Phase.between.events stream.body), ?_, ?_, ?_⟩
  · rw [events_eq_of_after hafter]
    exact hbody.eq_productions
  · exact Phase.Shaped.productions_after trivial hbody
  · simpa [Phase.toTokens] using htokens.symm

/-- A stream with a body that fitting productions spell brings about the productions. -/
theorem events_eq_of_toTokens {productions : List Production}
    (hshaped : ∀ production ∈ productions, production.Shaped .fitting)
    (htokens : productions.flatMap Production.toTokens = stream.body.map Token.kept) :
    stream.events = productions.map .production := by
  obtain ⟨hevents, hafter⟩ := Phase.events_flatMap_toTokens hshaped
  rw [htokens] at hevents hafter
  have hclean : Clean (Phase.between.events (stream.body.map Token.kept)) := by
    intro problem
    simp [hevents]
  obtain ⟨hbodyEvents, hbodyAfter⟩ := Phase.read_kept hclean
  rw [events_eq_of_after (hbodyAfter.trans hafter), hbodyEvents, hevents]

end TokenStream

/-! ### Productions in a row -/

namespace Grammar

theorem size_insert {grammar : Grammar} {key : String} (production : Production)
    (hnew : grammar.find? key = none) : (grammar.insert key production).size = grammar.size + 1 := by
  obtain ⟨entries, hordered⟩ := grammar
  change (insertEntry key production entries).length = entries.length + 1
  have hkeys : ∀ entry ∈ entries, key ≠ entry.1 := by
    intro entry hmem heq
    rw [find?, Option.map_eq_none_iff, List.find?_eq_none] at hnew
    exact hnew entry hmem (by simp [heq])
  clear hnew hordered
  induction entries with
  | nil => rfl
  | cons entry rest ih =>
    obtain ⟨hentry, hrest⟩ := List.forall_mem_cons.mp hkeys
    rw [insertEntry, if_neg hentry]
    split
    · rfl
    · rw [List.length_cons, ih hrest, List.length_cons]

end Grammar

namespace Reading

/-- Nothing follows the end of input if it is the last token. -/
theorem ofTokens_concat_stop {tokens : List Token} {stop : Token} (htokens : ∀ token ∈ tokens, token.isEndOfInput = false)
    (hstop : stop.isEndOfInput = true) : TokenStream.ofTokens (tokens ++ [stop]) = ⟨tokens, stop, []⟩ := by
  have hinside : ∀ token ∈ tokens, (!token.isEndOfInput) = true := by
    intro token hmem
    rw [htokens token hmem]
    rfl
  have htake : (tokens ++ [stop]).takeWhile (!·.isEndOfInput) = tokens := by
    rw [List.takeWhile_append_of_pos hinside, List.takeWhile_cons_of_neg (by simp [hstop]), List.append_nil]
  have hdrop : (tokens ++ [stop]).dropWhile (!·.isEndOfInput) = [stop] := by
    rw [List.dropWhile_append_of_pos hinside, List.dropWhile_cons_of_neg (by simp [hstop])]
  rw [TokenStream.ofTokens, htake, hdrop]

theorem clean_of_diagnostics_ofEvents {grammar : Grammar} {events : List Event}
    (hnone : (ofEvents grammar events).diagnostics = []) : Clean events := by
  induction events generalizing grammar with
  | nil => exact clean_nil
  | cons event rest ih =>
    cases event with
    | problem problem => simp [ofEvents, report] at hnone
    | production production =>
      have hrest : Clean rest := by
        rw [ofEvents] at hnone
        split at hnone
        · split at hnone
          · simp [report] at hnone
          · exact ih hnone
        · exact ih hnone
      intro problem hmem
      exact hrest problem (by simpa using hmem)

/-- Productions are added without a diagnostic if their names are new and all different. -/
theorem diagnostics_ofEvents_eq_nil_iff {productions : List Production}
    (hnames : ∀ production ∈ productions, production.name.kind = .nonTerminal) (grammar : Grammar) :
    (ofEvents grammar (productions.map .production)).diagnostics = [] ↔
      (productions.map (·.name.spelling)).Nodup ∧
        ∀ production ∈ productions, grammar.find? production.name.spelling = none := by
  induction productions generalizing grammar with
  | nil => simp [ofEvents]
  | cons production rest ih =>
    obtain ⟨hname, hrest⟩ := List.forall_mem_cons.mp hnames
    rw [List.map_cons, ofEvents, if_pos hname, List.map_cons, List.nodup_cons, List.forall_mem_cons]
    cases hfind : grammar.find? production.name.spelling with
    | some previous => simp [report]
    | none =>
      change (ofEvents _ _).diagnostics = [] ↔ _
      rw [ih hrest]
      -- a later name is new after the insertion if it was new before and is not the name inserted
      have hnew (other : Production) :
          (grammar.insert production.name.spelling production).find? other.name.spelling = none ↔
            other.name.spelling ≠ production.name.spelling ∧ grammar.find? other.name.spelling = none := by
        rw [Grammar.find?_insert]
        split
        · next heq => simp [heq]
        · next hne => simp [hne]
      simp only [hnew, List.mem_map, not_exists, not_and, forall_and, true_and]
      tauto

/-- What the grammar holds if productions are added without a diagnostic. -/
theorem ofEvents_productions {productions : List Production}
    (hnames : ∀ production ∈ productions, production.name.kind = .nonTerminal) {grammar : Grammar}
    (hnone : (ofEvents grammar (productions.map .production)).diagnostics = []) :
    (ofEvents grammar (productions.map .production)).definitions = productions ∧
      (ofEvents grammar (productions.map .production)).grammar.size = grammar.size + productions.length ∧
      ∀ key production, (ofEvents grammar (productions.map .production)).grammar.find? key = some production ↔
        grammar.find? key = some production ∨ production ∈ productions ∧ production.name.spelling = key := by
  induction productions generalizing grammar with
  | nil => simp [ofEvents]
  | cons production rest ih =>
    obtain ⟨hname, hrest⟩ := List.forall_mem_cons.mp hnames
    have hnew := ((diagnostics_ofEvents_eq_nil_iff hnames grammar).mp hnone).2 production List.mem_cons_self
    have heq : ofEvents grammar ((production :: rest).map .production) =
        define production (ofEvents (grammar.insert production.name.spelling production) (rest.map .production)) := by
      rw [List.map_cons, ofEvents, if_pos hname, hnew]
    rw [heq] at hnone ⊢
    obtain ⟨hdefinitions, hsize, hfind⟩ := ih hrest hnone
    refine ⟨congrArg (production :: ·) hdefinitions, ?_, ?_⟩
    · change (ofEvents _ _).grammar.size = _
      rw [hsize, Grammar.size_insert production hnew, List.length_cons]
      omega
    · intro key other
      change (ofEvents _ _).grammar.find? key = some other ↔ _
      rw [hfind, Grammar.find?_insert, List.mem_cons]
      by_cases hkey : key = production.name.spelling
      · subst hkey
        rw [if_pos rfl, hnew]
        constructor
        · rintro (hother | ⟨hmem, hspelling⟩)
          · exact .inr ⟨.inl (Option.some.inj hother).symm, by rw [Option.some.inj hother]⟩
          · exact .inr ⟨.inr hmem, hspelling⟩
        · rintro (hother | ⟨rfl | hmem, hspelling⟩)
          · simp at hother
          · exact .inl rfl
          · exact .inr ⟨hmem, hspelling⟩
      · rw [if_neg hkey]
        constructor
        · rintro (hother | ⟨hmem, hspelling⟩)
          · exact .inl hother
          · exact .inr ⟨.inr hmem, hspelling⟩
        · rintro (hother | ⟨rfl | hmem, hspelling⟩)
          · exact .inl hother
          · exact absurd hspelling.symm hkey
          · exact .inr ⟨hmem, hspelling⟩

/-- The reading holds productions that spell the tokens, in the order of the source, each under its
name, and no others. -/
structure Spells (reading : Reading) (tokens : List Token) : Prop where
  toTokens_eq : reading.definitions.flatMap Production.toTokens = tokens.map Token.kept
  shaped : ∀ production ∈ reading.definitions, production.Shaped .fitting
  names_eq : ∀ names, DerivesProductions tokens names → reading.definitions.map (·.name) = names
  size_eq : reading.grammar.size = reading.definitions.length
  find?_eq_some_iff : ∀ key production, reading.grammar.find? key = some production ↔
    production ∈ reading.definitions ∧ production.name.spelling = key

theorem diagnostics_ofTokens (tokens : List Token) :
    (ofTokens tokens).diagnostics = (ofEvents .empty (TokenStream.ofTokens tokens).events).diagnostics ++
      trailingProblems (TokenStream.ofTokens tokens).trailing :=
  rfl

theorem trailingProblems_eq_nil_iff {tokens : List Token} : trailingProblems tokens = [] ↔ tokens = [] := by
  cases tokens <;> simp [trailingProblems]

/-- Tokens are read without a diagnostic exactly if nothing follows the end of input and what comes
before it is productions with different names in a row. What is read then spells the tokens. -/
theorem diagnostics_ofTokens_eq_nil_iff (tokens : List Token) :
    ((ofTokens tokens).diagnostics = [] ↔
      (tokens.dropWhile (!·.isEndOfInput)).tail = [] ∧
        ∃ names, DerivesProductions (tokens.takeWhile (!·.isEndOfInput)) names ∧
          (names.map Token.spelling).Nodup) ∧
    ((ofTokens tokens).diagnostics = [] → (ofTokens tokens).Spells (tokens.takeWhile (!·.isEndOfInput))) := by
  have hstop := TokenStream.kind_stop_ofTokens tokens
  rw [diagnostics_ofTokens, List.append_eq_nil_iff, trailingProblems_eq_nil_iff, TokenStream.trailing_ofTokens,
    ← TokenStream.body_ofTokens]
  refine ⟨⟨?_, ?_⟩, ?_⟩
  · rintro ⟨hevents, htrailing⟩
    obtain ⟨productions, hproductions, hshaped, htokens⟩ :=
      TokenStream.exists_productions_of_clean hstop (clean_of_diagnostics_ofEvents hevents)
    rw [hproductions, diagnostics_ofEvents_eq_nil_iff fun production hmem => (hshaped production hmem).heading]
      at hevents
    refine ⟨htrailing, _, derivesProductions_of_toTokens hshaped htokens, ?_⟩
    rw [List.map_map]
    exact hevents.1
  · rintro ⟨htrailing, names, hderives, hnodup⟩
    obtain ⟨productions, hshaped, rfl, htokens⟩ := hderives.exists_productions
    rw [TokenStream.events_eq_of_toTokens hshaped htokens,
      diagnostics_ofEvents_eq_nil_iff fun production hmem => (hshaped production hmem).heading]
    rw [List.map_map] at hnodup
    exact ⟨⟨hnodup, fun production _ => Grammar.find?_empty _⟩, htrailing⟩
  · rintro ⟨hevents, -⟩
    obtain ⟨productions, hproductions, hshaped, htokens⟩ :=
      TokenStream.exists_productions_of_clean hstop (clean_of_diagnostics_ofEvents hevents)
    have hnames : ∀ production ∈ productions, production.name.kind = .nonTerminal :=
      fun production hmem => (hshaped production hmem).heading
    rw [hproductions] at hevents
    obtain ⟨hdefinitions, hsize, hfind⟩ := ofEvents_productions hnames hevents
    have hreading : (ofTokens tokens).definitions = productions := by
      rw [← hdefinitions, ← hproductions]
      rfl
    have hgrammar : (ofTokens tokens).grammar = (ofEvents .empty (productions.map .production)).grammar := by
      rw [← hproductions]
      rfl
    constructor
    · rw [hreading, htokens]
    · rw [hreading]
      exact hshaped
    · intro names hderives
      obtain ⟨others, hothers, rfl, hspelled⟩ := hderives.exists_productions
      rw [hreading, eq_of_flatMap_toTokens_eq hshaped hothers (htokens.trans hspelled.symm)]
    · rw [hgrammar, hsize, hreading]
      exact Nat.zero_add _
    · intro key production
      rw [hgrammar, hfind, hreading, Grammar.find?_empty]
      simp

/-- The tokens of `a = { A | b } .` and `b = .` with the end of input. -/
def twoProductions : List Token :=
  [⟨.nonTerminal, [0x61], ⟨1, 1⟩, 0⟩, ⟨.equals, [], ⟨1, 3⟩, 1⟩, ⟨.opening .repetition, [], ⟨1, 5⟩, 2⟩,
   ⟨.terminal, [0x41], ⟨1, 7⟩, 3⟩, ⟨.bar, [], ⟨1, 9⟩, 4⟩, ⟨.nonTerminal, [0x62], ⟨1, 11⟩, 5⟩,
   ⟨.closing .repetition, [], ⟨1, 13⟩, 6⟩, ⟨.terminator, [], ⟨1, 15⟩, 7⟩,
   ⟨.nonTerminal, [0x62], ⟨2, 1⟩, 8⟩, ⟨.equals, [], ⟨2, 3⟩, 9⟩, ⟨.terminator, [], ⟨2, 5⟩, 10⟩,
   ⟨.endOfInput, [], ⟨3, 1⟩, 11⟩]

theorem spells_twoProductions :
    (ofTokens twoProductions).diagnostics = [] ∧
      (∃ names, DerivesProductions (twoProductions.takeWhile (!·.isEndOfInput)) names ∧
        (names.map Token.spelling).Nodup) ∧
      (ofTokens twoProductions).Spells (twoProductions.takeWhile (!·.isEndOfInput)) := by
  have hnone : (ofTokens twoProductions).diagnostics = [] := rfl
  obtain ⟨hiff, hspells⟩ := diagnostics_ofTokens_eq_nil_iff twoProductions
  exact ⟨hnone, (hiff.1 hnone).2, hspells hnone⟩

end Reading

end GrammarCheck
