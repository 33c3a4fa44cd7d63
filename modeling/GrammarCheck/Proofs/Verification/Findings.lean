import GrammarCheck.Proofs.Reading.MissingTerms
import GrammarCheck.Proofs.Reading.Shape
import GrammarCheck.Proofs.Verification.Exactness

/-!
# What verifying finds in a grammar that was read

Each problem that verifying reports comes from a production of the grammar or from the start. Names in a
grammar that was read are non-terminals, so that none of them is a terminal where it must not be. Missing
terms are reported by reading and then by verifying, each at most as often as by reading, since a search
visits a production once.
-/

namespace GrammarCheck

/-! ### Where problems come from -/

/-- The problems that verifying a grammar from a start can report. -/
inductive Grammar.Finds (grammar : Grammar) (start : String) : Diagnostic → Prop where
  | noStart (hstart : grammar.contains start = false) : Finds grammar start (.noStartProduction start)
  | missing {key : String} {production : Production} {token : Token} (hfind : grammar.find? key = some production)
      (hnamed : .reference token ∈ production.occurrences) (hmissing : grammar.contains token.spelling = false) :
      Finds grammar start (.missingProduction token.spelling token.position)
  | nonLexical {key : String} {production : Production} {token : Token} (hfind : grammar.find? key = some production)
      (hnamed : .reference token ∈ production.occurrences) (hkind : token.kind = .terminal) :
      Finds grammar start (.nonLexicalReference token.spelling token.position)
  | problem {key : String} {production : Production} {problem : Diagnostic} (hfind : grammar.find? key = some production)
      (hmem : .problem problem ∈ production.occurrences) : Finds grammar start problem
  | unreachable {key : String} {production : Production} (hfind : grammar.find? key = some production) :
      Finds grammar start (.unreachable key production.name.line)

namespace Grammar

variable {grammar : Grammar} {start : String}

theorem finds_of_mem_findings {key : String} {production : Production} (hfind : grammar.find? key = some production)
    {diagnostic : Diagnostic} (hmem : diagnostic ∈ production.findings grammar) : grammar.Finds start diagnostic := by
  obtain ⟨occurrence, hoccurrence, hfound⟩ := List.mem_flatMap.1 hmem
  cases occurrence with
  | problem problem =>
    obtain rfl := List.mem_singleton.1 hfound
    exact .problem hfind hoccurrence
  | reference token =>
    rcases List.mem_append.1 hfound with hfound | hfound
    · split at hfound
      · contradiction
      · next hmissing =>
        obtain rfl := List.mem_singleton.1 hfound
        exact .missing hfind hoccurrence (Bool.eq_false_iff.2 hmissing)
    · split at hfound
      · next hkinds =>
        obtain rfl := List.mem_singleton.1 hfound
        exact .nonLexical hfind hoccurrence hkinds.2
      · contradiction

theorem find?_of_mem_visited {entry : String × Production} (hmem : entry ∈ (grammar.search start).visited) :
    grammar.find? entry.1 = some entry.2 :=
  (valid_search grammar start).follows.find?_eq entry (List.mem_append_left _ hmem)

theorem find?_of_mem_unreached {entry : String × Production} (hmem : entry ∈ (grammar.search start).unreached.entries) :
    grammar.find? entry.1 = some entry.2 := by
  rw [unreached_search] at hmem
  exact find?_eq_some_iff.2 (List.mem_of_mem_filter hmem)

theorem finds_of_mem_verify {diagnostic : Diagnostic} (hmem : diagnostic ∈ grammar.verify start) :
    grammar.Finds start diagnostic := by
  rw [verify] at hmem
  split at hmem
  · rcases List.mem_append.1 hmem with hmem | hmem
    · obtain ⟨entry, hvisited, hfound⟩ := List.mem_flatMap.1 hmem
      exact finds_of_mem_findings (find?_of_mem_visited hvisited) hfound
    · obtain ⟨entry, hunreached, rfl⟩ := List.mem_map.1 hmem
      exact .unreachable (find?_of_mem_unreached hunreached)
  · next hstart =>
    obtain rfl := List.mem_singleton.1 hmem
    exact .noStart (Bool.eq_false_iff.2 hstart)

/-! ### Each production once -/

/-- A search visits entries of the grammar, none of them twice. -/
theorem visited_subperm (grammar : Grammar) (start : String) : (grammar.search start).visited.Subperm grammar.entries := by
  have hnodup : (grammar.search start).visited.Nodup := (valid_search grammar start).visitsLatest.nodup.of_map _
  apply hnodup.subperm
  intro entry hmem
  exact find?_eq_some_iff.1 (find?_of_mem_visited hmem)

end Grammar

theorem subperm_flatMap {α β : Type} {first second : List α} (hsubperm : first.Subperm second) (parts : α → List β) :
    (first.flatMap parts).Subperm (second.flatMap parts) := by
  obtain ⟨middle, hperm, hsublist⟩ := hsubperm
  exact ((hperm.symm.flatMap_right parts).subperm).trans (hsublist.flatMap parts).subperm

theorem Production.filter_isSyntax_findings (production : Production) (grammar : Grammar) :
    (production.findings grammar).filter Diagnostic.isSyntax = production.problems.filter Diagnostic.isSyntax := by
  rw [findings, problems]
  induction production.occurrences with
  | nil => rfl
  | cons occurrence rest ih =>
    rw [List.flatMap_cons, List.filter_append, ih]
    cases occurrence with
    | problem problem => exact (List.filter_append [problem] _).symm
    | reference token =>
      have hnone : (production.findingsAt grammar (.reference token)).filter Diagnostic.isSyntax = [] := by
        rw [findingsAt, List.filter_append]
        split <;> split <;> rfl
      rw [hnone, List.nil_append]
      rfl

/-- Verifying reports the syntax problems in the productions of the grammar, none more often than it is
in them. -/
theorem Grammar.filter_isSyntax_verify_subperm (grammar : Grammar) (start : String) :
    ((grammar.verify start).filter Diagnostic.isSyntax).Subperm (grammar.productions.flatMap Production.problems) := by
  rw [verify]
  split
  · have hunreached : ((grammar.search start).unreached.entries.map fun entry =>
        Diagnostic.unreachable entry.1 entry.2.name.line).filter Diagnostic.isSyntax = [] := by
      apply List.filter_eq_nil_iff.2
      intro diagnostic hmem
      obtain ⟨entry, _, rfl⟩ := List.mem_map.1 hmem
      simp [Diagnostic.isSyntax]
    rw [List.filter_append, hunreached, List.append_nil, List.filter_flatMap, productions, List.flatMap_map]
    refine List.Subperm.trans (List.Sublist.subperm ?_) (subperm_flatMap (visited_subperm grammar start) _)
    apply List.Sublist.flatMap_right
    intro entry _
    rw [Production.filter_isSyntax_findings]
    exact List.filter_sublist
  · exact List.nil_sublist _ |>.subperm

/-! ### Names -/

namespace Expression

/-- Names and headings that are non-terminals among the tokens. -/
def Leaves.among (tokens : List Token) : Leaves where
  heading token := token.kind = .nonTerminal → token ∈ tokens
  name token := token.kind = .nonTerminal ∧ token ∈ tokens
  literal _ := True
  opening _ _ := True
  malformed _ _ := True

theorem Shaped.of_names {leaves : Leaves} {expression : Expression} {token : Token} (hnames : expression.Names token)
    {level : Level} (hshaped : expression.Shaped leaves level) : leaves.name token := by
  induction hnames generalizing level with
  | name token =>
    cases hshaped with
    | name htoken => exact htoken
  | alternative hbranch _ ih =>
    cases hshaped with
    | alternative _ hbranches => exact ih (hbranches _ hbranch)
  | sequence hterm _ ih =>
    cases hshaped with
    | sequence _ _ hterms => exact ih (hterms _ hterm)
  | enclosed _ ih =>
    cases hshaped with
    | enclosed _ hbody => exact ih hbody

end Expression

namespace Diagnostic

theorem ArisesAt.isSyntax {token : Token} {problem : Diagnostic} (harises : problem.ArisesAt token) :
    problem.isSyntax = true := by
  cases harises <;> rfl

end Diagnostic

namespace Reading

variable {tokens : List Token}

/-- Productions are named by tokens, and the names in them are non-terminals among the tokens. -/
theorem names_of_find? {key : String} {production : Production}
    (hfind : (ofTokens tokens).grammar.find? key = some production) :
    production.name ∈ tokens ∧
      ∀ token, .reference token ∈ production.occurrences → token.kind = .nonTerminal ∧ token ∈ tokens := by
  have hmem : ∀ token ∈ (TokenStream.ofTokens tokens).stop :: (TokenStream.ofTokens tokens).body,
      token.kind = .nonTerminal → token ∈ tokens := by
    apply TokenStream.forall_mem_ofTokens
    · intro token hstop hkind
      rw [hstop] at hkind
      contradiction
    · exact fun token htoken _ => htoken
  have hall : (Expression.Leaves.among tokens).AdmitsAll
      ((TokenStream.ofTokens tokens).stop :: (TokenStream.ofTokens tokens).body) (TokenStream.ofTokens tokens).events :=
    ⟨hmem, fun token htoken => ⟨fun hkind => ⟨hkind, hmem token htoken hkind⟩, fun _ => trivial, fun _ _ => trivial⟩,
      fun _ _ _ _ => trivial⟩
  obtain ⟨_, hkind, hshaped⟩ := shaped_of_find? hall hfind
  refine ⟨hshaped.heading hkind, ?_⟩
  intro token hnamed
  obtain ⟨name, expression⟩ := production
  cases expression with
  | none => contradiction
  | some expression =>
    exact Expression.Shaped.of_names (Expression.reference_mem_occurrences_iff.1 hnamed)
      (hshaped.expression expression rfl)

/-! ### What reading reports -/

theorem isSyntax_of_mem_ofEvents {grammar : Grammar} {events : List Event}
    (hevents : ∀ event ∈ events, event.ArisesIn tokens) :
    ∀ diagnostic ∈ (ofEvents grammar events).diagnostics, diagnostic.isSyntax = true := by
  fun_induction ofEvents grammar events with
  | case1 => simp
  | case2 grammar problem rest ih =>
    obtain ⟨⟨token, _, harises⟩, hrest⟩ := List.forall_mem_cons.1 hevents
    exact List.forall_mem_cons.2 ⟨harises.isSyntax, ih hrest⟩
  | case3 grammar production rest _ previous _ ih =>
    exact List.forall_mem_cons.2 ⟨rfl, ih (List.forall_mem_cons.1 hevents).2⟩
  | case4 grammar production rest _ _ ih => exact ih (List.forall_mem_cons.1 hevents).2
  | case5 grammar production rest _ ih => exact ih (List.forall_mem_cons.1 hevents).2

theorem isSyntax_of_mem_diagnostics : ∀ diagnostic ∈ (ofTokens tokens).diagnostics, diagnostic.isSyntax = true := by
  intro diagnostic hmem
  rcases List.mem_append.1 hmem with hmem | hmem
  · have hevents := TokenStream.arisesIn_of_mem_events (TokenStream.not_beginsTerm_stop tokens)
    exact isSyntax_of_mem_ofEvents hevents diagnostic hmem
  · cases htrailing : (TokenStream.ofTokens tokens).trailing with
    | nil =>
      rw [htrailing] at hmem
      contradiction
    | cons first rest =>
      rw [htrailing] at hmem
      obtain rfl := List.mem_singleton.1 hmem
      rfl

/-! ### What verifying reports of it -/

theorem missingTerms_sublist_diagnostics (tokens : List Token) :
    (missingTermsOf (TokenStream.ofTokens tokens).events).Sublist (ofTokens tokens).diagnostics :=
  (sublist_diagnostics_ofEvents .empty _).trans (List.sublist_append_left _ _)

theorem mem_missingTermsOf_of_mem_occurrences {key : String} {production : Production} {problem : Diagnostic}
    (hfind : (ofTokens tokens).grammar.find? key = some production) (hmem : .problem problem ∈ production.occurrences) :
    problem ∈ missingTermsOf (TokenStream.ofTokens tokens).events := by
  apply (subperm_diagnostics_ofTokens tokens).subset
  refine List.mem_flatMap.2 ⟨production, ?_, ?_⟩
  · exact List.mem_map.2 ⟨_, Grammar.find?_eq_some_iff.1 hfind, rfl⟩
  · exact List.mem_filterMap.2 ⟨_, hmem, rfl⟩

/-- The problems in productions that were read are missing terms. -/
theorem exists_emptySequence_of_mem_occurrences {key : String} {production : Production} {problem : Diagnostic}
    (hfind : (ofTokens tokens).grammar.find? key = some production) (hmem : .problem problem ∈ production.occurrences) :
    ∃ position found, problem = .emptySequence position found :=
  exists_emptySequence_of_mem (mem_missingTermsOf_of_mem_occurrences hfind hmem)

theorem nonLexicalReference_not_mem_verify (tokens : List Token) (start name : String) (position : Position) :
    .nonLexicalReference name position ∉ (ofTokens tokens).grammar.verify start := by
  intro hmem
  generalize hdiagnostic : Diagnostic.nonLexicalReference name position = diagnostic at hmem
  cases Grammar.finds_of_mem_verify hmem with
  | nonLexical hfind hnamed hkind =>
    rw [((names_of_find? hfind).2 _ hnamed).1] at hkind
    contradiction
  | problem hfind hoccurs =>
    obtain ⟨_, _, rfl⟩ := exists_emptySequence_of_mem_occurrences hfind hoccurs
    contradiction
  | _ => contradiction

/-- Reading reports problems with the syntax only. Verifying what was read reports no terminal for a
production that names one where it must not, and no problem with the syntax but missing terms, none of
them more often than reading. If reading reports nothing, neither does verifying but for names without
a production and productions that cannot be reached. -/
theorem verify_ofTokens (tokens : List Token) (start : String) :
    (∀ diagnostic ∈ (ofTokens tokens).diagnostics, diagnostic.isSyntax = true) ∧
      (∀ name position, .nonLexicalReference name position ∉ (ofTokens tokens).grammar.verify start) ∧
      (∀ diagnostic ∈ (ofTokens tokens).grammar.verify start, diagnostic.isSyntax = true →
        ∃ position found, diagnostic = .emptySequence position found) ∧
      (((ofTokens tokens).grammar.verify start).filter Diagnostic.isSyntax).Subperm (ofTokens tokens).diagnostics ∧
      ((ofTokens tokens).diagnostics = [] → ∀ diagnostic ∈ (ofTokens tokens).grammar.verify start,
        (∃ name, diagnostic = .noStartProduction name) ∨ (∃ name position, diagnostic = .missingProduction name position) ∨
          ∃ name line, diagnostic = .unreachable name line) := by
  have hmissing := (missingTerms_sublist_diagnostics tokens).subperm
  refine ⟨isSyntax_of_mem_diagnostics, nonLexicalReference_not_mem_verify tokens start, ?_, ?_, ?_⟩
  · intro diagnostic hmem hsyntax
    cases Grammar.finds_of_mem_verify hmem with
    | problem hfind hoccurs => exact exists_emptySequence_of_mem_occurrences hfind hoccurs
    | _ => contradiction
  · exact ((Grammar.filter_isSyntax_verify_subperm _ start).trans (subperm_diagnostics_ofTokens tokens)).trans hmissing
  · intro hnone diagnostic hmem
    cases Grammar.finds_of_mem_verify hmem with
    | noStart => exact .inl ⟨_, rfl⟩
    | missing => exact .inr (.inl ⟨_, _, rfl⟩)
    | unreachable => exact .inr (.inr ⟨_, _, rfl⟩)
    | nonLexical => exact absurd hmem (nonLexicalReference_not_mem_verify tokens start _ _)
    | problem hfind hoccurs =>
      have hreported := hmissing.subset (mem_missingTermsOf_of_mem_occurrences hfind hoccurs)
      rw [hnone] at hreported
      contradiction

theorem verify_ofTokens_recursive :
    let broken := ofTokens (scan (Utf8.encode "a = a | | a ( ) ."))
    let complete := ofTokens (scan (Utf8.encode "a = a b .\nc = ."))
    broken.diagnostics.length = 2 ∧ (broken.grammar.verify "a").length = 2 ∧
      ((broken.grammar.verify "a").filter Diagnostic.isSyntax).Subperm broken.diagnostics ∧
      complete.diagnostics = [] ∧ (complete.grammar.verify "a").length = 2 ∧
      ∀ diagnostic ∈ complete.grammar.verify "a",
        (∃ name, diagnostic = .noStartProduction name) ∨ (∃ name position, diagnostic = .missingProduction name position) ∨
          ∃ name line, diagnostic = .unreachable name line := by
  intro broken complete
  have hnone : complete.diagnostics = [] := by decide +kernel
  obtain ⟨_, _, _, hsubperm, _⟩ := verify_ofTokens (scan (Utf8.encode "a = a | | a ( ) .")) "a"
  obtain ⟨_, _, _, _, hcomplete⟩ := verify_ofTokens (scan (Utf8.encode "a = a b .\nc = .")) "a"
  exact ⟨by decide +kernel, by decide +kernel, hsubperm, hnone, by decide +kernel, hcomplete hnone⟩

end Reading

end GrammarCheck
