import GrammarCheck.Proofs.Printing.RoundTrip
import GrammarCheck.Proofs.Scanning.Position
import GrammarCheck.Proofs.Scanning.Prefix
import GrammarCheck.Proofs.Verification.Findings

/-!
# What is reported is true of the source

Every problem is reported at a token of the source, so that its position is the place where the token
begins. Productions are named by tokens in their order, so that a production never repeats a later one.
-/

namespace GrammarCheck

namespace Reading

variable {source : List UInt8} {grammar : Grammar} {events : List Event}

/-! ### Repeated productions -/

theorem find?_ofEvents_of_find? {key : String} {production : Production} (events : List Event)
    (hfind : grammar.find? key = some production) : (ofEvents grammar events).grammar.find? key = some production := by
  rw [Grammar.find?_eq_some_iff, (entries_ofEvents_perm grammar events).mem_iff]
  exact List.mem_append_left _ (Grammar.find?_eq_some_iff.1 hfind)

/-- The diagnostic says of one of the names that it repeats that of a production which the grammar keeps
and which precedes it. -/
def SaysRepeated (precedes : Token → Token → Prop) (names : List Token) (kept : Grammar) (diagnostic : Diagnostic) : Prop :=
  ∃ repeated ∈ names, ∃ previous : Production, repeated.kind = .nonTerminal ∧ precedes previous.name repeated ∧
    kept.find? repeated.spelling = some previous ∧
    diagnostic = .duplicateProduction repeated.spelling repeated.line previous.name.line

theorem SaysRepeated.mono {precedes : Token → Token → Prop} {names names' : List Token} {kept : Grammar}
    {diagnostic : Diagnostic} (hsubset : names ⊆ names') (hrepeats : SaysRepeated precedes names kept diagnostic) :
    SaysRepeated precedes names' kept diagnostic := by
  obtain ⟨repeated, hrepeated, hprevious⟩ := hrepeats
  exact ⟨repeated, hsubset hrepeated, hprevious⟩

/-- What the grammar holds precedes the productions. -/
def HoldsBefore (precedes : Token → Token → Prop) (grammar : Grammar) (productions : List Production) : Prop :=
  ∀ key previous, grammar.find? key = some previous → ∀ production ∈ productions, precedes previous.name production.name

theorem HoldsBefore.of_cons {precedes : Token → Token → Prop} {production : Production} {productions : List Production}
    (hbefore : HoldsBefore precedes grammar (production :: productions)) : HoldsBefore precedes grammar productions :=
  fun key previous hfind later hlater => hbefore key previous hfind later (List.mem_cons_of_mem _ hlater)

theorem HoldsBefore.insert {precedes : Token → Token → Prop} {production : Production} {productions : List Production}
    (hbefore : HoldsBefore precedes grammar (production :: productions)) (key : String)
    (hproduction : ∀ later ∈ productions, precedes production.name later.name) :
    HoldsBefore precedes (grammar.insert key production) productions := by
  intro wanted previous hfind later hlater
  rw [Grammar.find?_insert] at hfind
  split at hfind
  · rw [← Option.some.inj hfind]
    exact hproduction later hlater
  · exact hbefore.of_cons wanted previous hfind later hlater

/-- By induction on the events. What the grammar holds precedes what they still bring. -/
theorem problem_or_saysRepeated (precedes : Token → Token → Prop)
    (hordered : (productionsOf events).Pairwise fun production later => precedes production.name later.name)
    (hbefore : HoldsBefore precedes grammar (productionsOf events)) :
    ∀ diagnostic ∈ (ofEvents grammar events).diagnostics, .problem diagnostic ∈ events ∨
      SaysRepeated precedes ((productionsOf events).map (·.name)) (ofEvents grammar events).grammar diagnostic := by
  have hcons (production : Production) (rest : List Event) :
      productionsOf (.production production :: rest) = production :: productionsOf rest := rfl
  fun_induction ofEvents grammar events with
  | case1 => simp
  | case2 grammar problem rest ih =>
    refine List.forall_mem_cons.2 ⟨.inl List.mem_cons_self, ?_⟩
    intro diagnostic hmem
    exact (ih hordered hbefore diagnostic hmem).imp_left (List.mem_cons_of_mem _)
  | case3 grammar production rest hkind previous hfind ih =>
    rw [hcons] at hordered hbefore ⊢
    refine List.forall_mem_cons.2 ⟨.inr ?_, ?_⟩
    · exact ⟨production.name, List.mem_cons_self, previous, hkind, hbefore _ _ hfind production List.mem_cons_self,
        find?_ofEvents_of_find? rest hfind, rfl⟩
    · intro diagnostic hmem
      exact (ih hordered.of_cons hbefore.of_cons diagnostic hmem).imp (List.mem_cons_of_mem _)
        (.mono (List.subset_cons_self _ _))
  | case4 grammar production rest _ _ ih =>
    rw [hcons] at hordered hbefore ⊢
    intro diagnostic hmem
    have hinserted := hbefore.insert production.name.spelling (List.pairwise_cons.1 hordered).1
    exact (ih hordered.of_cons hinserted diagnostic hmem).imp (List.mem_cons_of_mem _)
      (.mono (List.subset_cons_self _ _))
  | case5 grammar production rest _ ih =>
    rw [hcons] at hordered hbefore ⊢
    intro diagnostic hmem
    exact (ih hordered.of_cons hbefore.of_cons diagnostic hmem).imp (List.mem_cons_of_mem _)
      (.mono (List.subset_cons_self _ _))

/-! ### Problems of a source -/

/-- The problems with a source arise at its tokens, or say of one of them that it repeats a name. -/
theorem arisesAt_or_saysRepeated (source : List UInt8) :
    ∀ diagnostic ∈ (ofSource source).diagnostics, (∃ token ∈ scan source, diagnostic.ArisesAt token) ∨
      SaysRepeated (·.line ≤ ·.line) (scan source) (ofSource source).grammar diagnostic := by
  obtain ⟨read, stop, hscan, hread, hstop⟩ := exists_scan_eq_concat source
  have hstream := ofTokens_concat_stop hread hstop
  have hends := TokenStream.not_beginsTerm_stop (read ++ [stop])
  have hlines := pairwise_line_scan source
  have hnames := Phase.sublist_names_outcome .between (TokenStream.ofTokens (read ++ [stop])).body hends
  rw [hscan] at hlines
  rw [ofSource, hscan, diagnostics_ofTokens, grammar_ofTokens]
  have harises := TokenStream.arisesIn_of_mem_events hends
  rw [← TokenStream.events_eq_outcome] at hnames
  rw [hstream] at hnames harises ⊢
  have hsublist : ((productionsOf (TokenStream.mk read stop []).events).map (·.name)).Sublist (read ++ [stop]) :=
    hnames.trans (List.sublist_append_left read [stop])
  have hordered := List.pairwise_map.1 (hlines.sublist hsublist)
  intro diagnostic hmem
  rw [trailingProblems, List.append_nil] at hmem
  rcases problem_or_saysRepeated (·.line ≤ ·.line) hordered (by simp [HoldsBefore]) diagnostic hmem with hproblem | hrepeats
  · obtain ⟨token, htoken, htokenArises⟩ := harises _ hproblem
    exact .inl ⟨token, by simpa [or_comm] using htoken, htokenArises⟩
  · exact .inr (hrepeats.mono hsublist.subset)

theorem exists_describedAt {position : Position} {found : String} {diagnostic : Diagnostic}
    (hmem : diagnostic ∈ (ofSource source).diagnostics)
    (hdiagnostic : (∃ expected, diagnostic = .unexpected position expected found) ∨ diagnostic = .emptySequence position found) :
    ∃ offset, HasPosition source offset position ∧ DescribedAt source offset found := by
  rcases arisesAt_or_saysRepeated source diagnostic hmem with ⟨token, htoken, harises⟩ | ⟨_, _, _, _, _, _, rfl⟩
  · have hat : position = token.position ∧ found = token.description := by
      cases harises with
      | unexpected =>
        obtain ⟨expected, heq⟩ | heq := hdiagnostic
        · obtain ⟨rfl, rfl, rfl⟩ := Diagnostic.unexpected.inj heq
          exact ⟨rfl, rfl⟩
        · contradiction
      | emptySequence =>
        obtain ⟨expected, heq⟩ | heq := hdiagnostic
        · contradiction
        · obtain ⟨rfl, rfl⟩ := Diagnostic.emptySequence.inj heq
          exact ⟨rfl, rfl⟩
    rw [hat.1, hat.2]
    exact exists_describedAt_of_mem_scan htoken
  · obtain ⟨expected, heq⟩ | heq := hdiagnostic <;> contradiction

theorem spells_name_of_find? {key : String} {production : Production}
    (hfind : (ofSource source).grammar.find? key = some production) : production.name.Spells source key := by
  obtain ⟨hmem, hkey⟩ := find?_ofTokens_eq_some_iff.1 hfind
  rw [← hkey]
  exact Token.spells_of_mem_scan (names_of_find? hfind).1 (kind_of_mem_definitions production hmem)

/-- Every position and every line that is reported is true of the source. Where a problem of reading
stands, the token begins that was found. A repeated name and the name of the production that is kept
are words on their lines, in this order. A name without a production is a whole word where it is
reported, and the name of a production that cannot be reached is a word on its line. -/
theorem positions_ofSource (source : List UInt8) (start : String) :
    (∀ position expected found, .unexpected position expected found ∈ (ofSource source).diagnostics →
      ∃ offset, HasPosition source offset position ∧ DescribedAt source offset found) ∧
    (∀ position found, .emptySequence position found ∈ (ofSource source).diagnostics →
      ∃ offset, HasPosition source offset position ∧ DescribedAt source offset found) ∧
    (∀ name line previousLine, .duplicateProduction name line previousLine ∈ (ofSource source).diagnostics →
      previousLine ≤ line ∧ (∃ token : Token, token.Spells source name ∧ token.line = line) ∧
        ∃ production, (ofSource source).grammar.find? name = some production ∧
          production.name.Spells source name ∧ production.name.line = previousLine) ∧
    (∀ name position, .missingProduction name position ∈ (ofSource source).grammar.verify start →
      ∃ offset, HasPosition source offset position ∧ WordAt source offset name) ∧
    (∀ name line, .unreachable name line ∈ (ofSource source).grammar.verify start →
      ∃ token : Token, token.Spells source name ∧ token.line = line) := by
  refine ⟨?_, ?_, ?_, ?_, ?_⟩
  · exact fun position expected found hmem => exists_describedAt hmem (.inl ⟨expected, rfl⟩)
  · exact fun position found hmem => exists_describedAt hmem (.inr rfl)
  · intro name line previousLine hmem
    rcases arisesAt_or_saysRepeated source _ hmem with ⟨token, _, harises⟩ | hrepeats
    · generalize hdiagnostic : Diagnostic.duplicateProduction name line previousLine = diagnostic at harises
      cases harises <;> contradiction
    · obtain ⟨repeated, hrepeated, previous, hkind, hlines, hfind, heq⟩ := hrepeats
      obtain ⟨rfl, rfl, rfl⟩ := Diagnostic.duplicateProduction.inj heq
      exact ⟨hlines, ⟨repeated, Token.spells_of_mem_scan hrepeated hkind, rfl⟩, previous, hfind,
        spells_name_of_find? hfind, rfl⟩
  · intro name position hmem
    generalize hdiagnostic : Diagnostic.missingProduction name position = diagnostic at hmem
    cases Grammar.finds_of_mem_verify hmem with
    | @missing key production token hfind hnamed _ =>
      obtain ⟨rfl, rfl⟩ := Diagnostic.missingProduction.inj hdiagnostic
      obtain ⟨hkind, htoken⟩ := (names_of_find? hfind).2 token hnamed
      exact (Token.spells_of_mem_scan htoken hkind).exists_wordAt
    | problem hfind hoccurs =>
      obtain ⟨_, _, rfl⟩ := exists_emptySequence_of_mem_occurrences hfind hoccurs
      contradiction
    | _ => contradiction
  · intro name line hmem
    generalize hdiagnostic : Diagnostic.unreachable name line = diagnostic at hmem
    cases Grammar.finds_of_mem_verify hmem with
    | @unreachable key production hfind =>
      obtain ⟨rfl, rfl⟩ := Diagnostic.unreachable.inj hdiagnostic
      exact ⟨production.name, spells_name_of_find? hfind, rfl⟩
    | problem hfind hoccurs =>
      obtain ⟨_, _, rfl⟩ := exists_emptySequence_of_mem_occurrences hfind hoccurs
      contradiction
    | _ => contradiction

theorem positions_ofSource_fourLines :
    let source := Utf8.encode "é = x ; ü\n  | .\né = .\nb = y )"
    let reading := ofSource source
    (.emptySequence ⟨2, 5⟩ "TERMINATOR" ∈ reading.diagnostics ∧
      .unexpected ⟨4, 7⟩ "TERMINATOR" "END_GROUP" ∈ reading.diagnostics ∧
      .duplicateProduction "é" 3 1 ∈ reading.diagnostics ∧
      .missingProduction "x" ⟨1, 6⟩ ∈ reading.grammar.verify "é" ∧ .unreachable "b" 4 ∈ reading.grammar.verify "é") ∧
    (∃ offset, HasPosition source offset ⟨2, 5⟩ ∧ DescribedAt source offset "TERMINATOR") ∧
    (∃ offset, HasPosition source offset ⟨4, 7⟩ ∧ DescribedAt source offset "END_GROUP") ∧
    (∃ production, reading.grammar.find? "é" = some production ∧ production.name.Spells source "é" ∧
      production.name.line = 1) ∧
    (∃ offset, HasPosition source offset ⟨1, 6⟩ ∧ WordAt source offset "x") ∧
    ∃ token : Token, token.Spells source "b" ∧ token.line = 4 := by
  intro source reading
  have hempty : .emptySequence ⟨2, 5⟩ "TERMINATOR" ∈ reading.diagnostics := by decide +kernel
  have hunexpected : .unexpected ⟨4, 7⟩ "TERMINATOR" "END_GROUP" ∈ reading.diagnostics := by decide +kernel
  have hduplicate : .duplicateProduction "é" 3 1 ∈ reading.diagnostics := by decide +kernel
  have hmissing : .missingProduction "x" ⟨1, 6⟩ ∈ reading.grammar.verify "é" := by decide +kernel
  have hunreachable : .unreachable "b" 4 ∈ reading.grammar.verify "é" := by decide +kernel
  obtain ⟨unexpectedTrue, emptyTrue, duplicateTrue, missingTrue, unreachableTrue⟩ := positions_ofSource source "é"
  exact ⟨⟨hempty, hunexpected, hduplicate, hmissing, hunreachable⟩, emptyTrue _ _ hempty, unexpectedTrue _ _ _ hunexpected,
    (duplicateTrue _ _ _ hduplicate).2.2, missingTrue _ _ hmissing, unreachableTrue _ _ hunreachable⟩

end Reading

end GrammarCheck
