import GrammarCheck.Proofs.Reading.Relabeling
import GrammarCheck.Proofs.Scanning.Joining
import GrammarCheck.Proofs.Verification.Origin
import Mathlib.Data.List.Nodup

/-!
# Sources in another order

A source that is read without a problem is productions in a row, and leaves the reader as it was before.
So such sources, joined by newlines, are the productions of all of them, places apart. If no two sources
define the same name, the order of the sources has no part in what the grammar holds.
-/

namespace GrammarCheck

/-! ### Tokens without places -/

/-- The tokens of the source before the end of input, without their places. -/
def placeless (source : List UInt8) : List Token := (scan source).dropLast.map Token.atOrigin

theorem isEndOfInput_of_mem_placeless {source : List UInt8} :
    ∀ token ∈ placeless source, token.isEndOfInput = false := by
  obtain ⟨read, stop, hscan, hread, _⟩ := exists_scan_eq_concat source
  intro token hmem
  rw [placeless, hscan, List.dropLast_concat] at hmem
  obtain ⟨found, hfound, rfl⟩ := List.mem_map.1 hmem
  exact hread found hfound

theorem map_atOrigin_scan (source : List UInt8) :
    (scan source).map Token.atOrigin = placeless source ++ [.bare .endOfInput] := by
  obtain ⟨read, stop, hscan, hkind, htext, _⟩ := exists_scan_append_newline source []
  have hstop : stop.atOrigin = .bare .endOfInput := by rw [Token.atOrigin, hkind, htext, Token.bare]
  rw [placeless, hscan, List.map_append, List.dropLast_concat, List.map_singleton, hstop]

theorem joined_cons_cons (source next : List UInt8) (rest : List (List UInt8)) :
    joined (source :: next :: rest) = source ++ newline :: joined (next :: rest) := by
  rw [joined, List.intercalate_cons_cons, List.append_assoc, joined, List.singleton_append]

theorem placeless_append_newline (source later : List UInt8) :
    placeless (source ++ newline :: later) = placeless source ++ placeless later := by
  obtain ⟨read, stop, hsource, _, _, hboth⟩ := exists_scan_append_newline source later
  obtain ⟨following, last, hlater, _, _⟩ := exists_scan_eq_concat later
  have horigin (lines tokens : Nat) : Token.atOrigin ∘ Token.shifted lines tokens = Token.atOrigin := rfl
  rw [placeless, placeless, placeless, hsource, hboth, hlater, List.map_append, List.map_singleton, ← List.append_assoc,
    List.dropLast_concat, List.dropLast_concat, List.dropLast_concat, List.map_append, List.map_map, horigin]

theorem placeless_joined (sources : List (List UInt8)) : placeless (joined sources) = sources.flatMap placeless := by
  induction sources with
  | nil => decide +kernel
  | cons source rest ih =>
    cases rest with
    | nil => rw [joined, List.intercalate_singleton, List.flatMap_singleton]
    | cons next rest => rw [joined_cons_cons, placeless_append_newline, ih, ← List.flatMap_cons]

theorem Grammar.nodup_keys (grammar : Grammar) : grammar.keys.Nodup := by
  apply (List.pairwise_map.2 grammar.ordered).imp
  intro earlier later hlt heq
  exact String.lt_irrefl later (heq ▸ hlt)

namespace Reading

/-! ### Productions in a row -/

variable {source : List UInt8} {sources reordered : List (List UInt8)}

/-- The productions of a source in its order, without places. -/
def productionsAtOrigin (source : List UInt8) : List Production :=
  (ofSource source).definitions.map (Production.relabel .atOrigin)

/-- Without places, what is read of a source is what its tokens bring about. -/
theorem relabel_atOrigin_ofSource (source : List UInt8) :
    (ofSource source).relabel .atOrigin =
      ofEvents .empty (Phase.between.outcome (placeless source) (.bare .endOfInput)) := by
  have hstream : TokenStream.ofTokens ((scan source).map Token.atOrigin) =
      ⟨placeless source, .bare .endOfInput, []⟩ := by
    rw [map_atOrigin_scan]
    exact ofTokens_concat_stop isEndOfInput_of_mem_placeless rfl
  have hrelabel := ofTokens_map_scan .atOrigin source
  rw [← hrelabel]
  change ofTokens ((scan source).map Token.atOrigin) = _
  rw [ofTokens, hstream]
  simp only [trailingProblems, List.append_nil]
  rfl

/-- A source without problems is its productions in a row. -/
theorem events_placeless (hnone : (ofSource source).diagnostics = []) :
    Phase.between.events (placeless source) = (productionsAtOrigin source).map .production ∧
      Phase.between.after (placeless source) = .between := by
  have hreading := relabel_atOrigin_ofSource source
  have hdiagnostics :
      (ofEvents .empty (Phase.between.outcome (placeless source) (.bare .endOfInput))).diagnostics = [] := by
    rw [← hreading, relabel, hnone, List.map_nil]
  let stream : TokenStream := ⟨placeless source, .bare .endOfInput, []⟩
  have hstop : stream.stop.kind = .endOfInput := rfl
  have hclean : Clean stream.events := clean_of_diagnostics_ofEvents hdiagnostics
  obtain ⟨_, hafter⟩ := (TokenStream.clean_events_iff hstop).1 hclean
  obtain ⟨productions, hproductions, hshaped, _⟩ := TokenStream.exists_productions_of_clean hstop hclean
  have hevents : stream.events = Phase.between.events (placeless source) := TokenStream.events_eq_of_after hafter
  have hnames : ∀ production ∈ productions, production.name.kind = .nonTerminal :=
    fun production hmem => (hshaped production hmem).heading
  have houtcome : Phase.between.outcome (placeless source) (.bare .endOfInput) = productions.map .production :=
    hproductions
  rw [houtcome] at hreading hdiagnostics
  have hdefined : productionsAtOrigin source = productions := by
    rw [← (ofEvents_productions hnames hdiagnostics).1, ← hreading]
    rfl
  exact ⟨by rw [← hevents, hproductions, hdefined], hafter⟩

/-- By induction on the sources, each of which leaves the reader between two productions. -/
theorem events_flatMap_placeless (hnone : ∀ source ∈ sources, (ofSource source).diagnostics = []) :
    Phase.between.events (sources.flatMap placeless) = (sources.flatMap productionsAtOrigin).map .production ∧
      Phase.between.after (sources.flatMap placeless) = .between := by
  induction sources with
  | nil => exact ⟨rfl, rfl⟩
  | cons source rest ih =>
    obtain ⟨hsource, hrest⟩ := List.forall_mem_cons.1 hnone
    obtain ⟨hevents, hafter⟩ := events_placeless hsource
    obtain ⟨hrestEvents, hrestAfter⟩ := ih hrest
    refine ⟨?_, ?_⟩
    · rw [List.flatMap_cons, List.flatMap_cons, Phase.events_append, hevents, hafter, hrestEvents, List.map_append]
    · rw [List.flatMap_cons, Phase.after_append, hafter, hrestAfter]

theorem relabel_atOrigin_ofSource_joined (hnone : ∀ source ∈ sources, (ofSource source).diagnostics = []) :
    (ofSource (joined sources)).relabel .atOrigin =
      ofEvents .empty ((sources.flatMap productionsAtOrigin).map .production) := by
  obtain ⟨hevents, hafter⟩ := events_flatMap_placeless hnone
  rw [relabel_atOrigin_ofSource, placeless_joined, Phase.outcome, hevents, hafter, Phase.finish, List.append_nil]

/-! ### Names -/

theorem kind_of_mem_productionsAtOrigin :
    ∀ production ∈ productionsAtOrigin source, production.name.kind = .nonTerminal := by
  intro production hmem
  obtain ⟨definition, hdefinition, rfl⟩ := List.mem_map.1 hmem
  exact kind_of_mem_definitions definition hdefinition

/-- The names of the productions of a source are the keys of its grammar. -/
theorem map_spelling_productionsAtOrigin_perm (source : List UInt8) :
    ((productionsAtOrigin source).map (·.name.spelling)).Perm (ofSource source).grammar.keys := by
  have hentries := (entries_ofTokens_perm (scan source)).map Prod.fst
  rw [List.map_map] at hentries
  rw [productionsAtOrigin, List.map_map]
  exact hentries.symm

theorem mem_productionsAtOrigin_iff {key : String} {production : Production} :
    production ∈ productionsAtOrigin source ∧ production.name.spelling = key ↔
      ((ofSource source).grammar.relabel .atOrigin).find? key = some production := by
  rw [Grammar.find?_relabel, Option.map_eq_some_iff, productionsAtOrigin, List.mem_map]
  constructor
  · intro ⟨⟨definition, hmem, heq⟩, hkey⟩
    exact ⟨definition, find?_ofTokens_eq_some_iff.2 ⟨hmem, by rw [← hkey, ← heq]; rfl⟩, heq⟩
  · intro ⟨definition, hfind, heq⟩
    obtain ⟨hmem, hkey⟩ := find?_ofTokens_eq_some_iff.1 hfind
    exact ⟨⟨definition, hmem, heq⟩, by rw [← hkey, ← heq]; rfl⟩

/-- No two of the sources define the same name. -/
def DefineApart (sources : List (List UInt8)) : Prop :=
  sources.Pairwise fun first second => (ofSource first).grammar.keys.Disjoint (ofSource second).grammar.keys

/-- Sources that define different names define no name twice, if none of them does. -/
theorem nodup_names (hapart : DefineApart sources) :
    ((sources.flatMap productionsAtOrigin).map (·.name.spelling)).Nodup := by
  rw [List.map_flatMap, List.nodup_flatMap]
  refine ⟨?_, ?_⟩
  · intro source _
    exact (map_spelling_productionsAtOrigin_perm source).nodup_iff.2 (Grammar.nodup_keys _)
  · apply hapart.imp
    intro first second hkeys name hfirst hsecond
    exact hkeys ((map_spelling_productionsAtOrigin_perm first).subset hfirst)
      ((map_spelling_productionsAtOrigin_perm second).subset hsecond)

/-! ### The union of the grammars -/

/-- The reading has no diagnostics, and places apart its grammar holds under each key what the grammar of
one of the sources holds under it. -/
structure Unites (reading : Reading) (sources : List (List UInt8)) : Prop where
  diagnostics_eq : reading.diagnostics = []
  find?_eq_some_iff : ∀ key production, (reading.grammar.relabel .atOrigin).find? key = some production ↔
    ∃ source ∈ sources, ((ofSource source).grammar.relabel .atOrigin).find? key = some production

theorem unites_ofSource_joined (hnone : ∀ source ∈ sources, (ofSource source).diagnostics = [])
    (hapart : DefineApart sources) :
    (ofSource (joined sources)).Unites sources := by
  have hreading := relabel_atOrigin_ofSource_joined hnone
  have hnames : ∀ production ∈ sources.flatMap productionsAtOrigin, production.name.kind = .nonTerminal := by
    intro production hmem
    obtain ⟨source, _, hproduction⟩ := List.mem_flatMap.1 hmem
    exact kind_of_mem_productionsAtOrigin production hproduction
  have hdiagnostics : (ofEvents .empty ((sources.flatMap productionsAtOrigin).map .production)).diagnostics = [] :=
    (diagnostics_ofEvents_eq_nil_iff hnames .empty).2 ⟨nodup_names hapart, fun _ _ => Grammar.find?_empty _⟩
  obtain ⟨_, _, hfind⟩ := ofEvents_productions hnames hdiagnostics
  rw [← hreading] at hdiagnostics hfind
  refine ⟨List.map_eq_nil_iff.1 hdiagnostics, ?_⟩
  intro key production
  refine (hfind key production).trans ?_
  rw [Grammar.find?_empty, List.mem_flatMap]
  constructor
  · intro hcases
    obtain ⟨⟨source, hsource, hmem⟩, hkey⟩ := hcases.resolve_left nofun
    exact ⟨source, hsource, mem_productionsAtOrigin_iff.1 ⟨hmem, hkey⟩⟩
  · intro ⟨source, hsource, hproduction⟩
    obtain ⟨hmem, hkey⟩ := mem_productionsAtOrigin_iff.2 hproduction
    exact .inr ⟨⟨source, hsource, hmem⟩, hkey⟩

theorem Unites.perm {reading : Reading} (hunites : reading.Unites sources) (hperm : sources.Perm reordered) :
    reading.Unites reordered := by
  refine ⟨hunites.diagnostics_eq, fun key production => ?_⟩
  rw [hunites.find?_eq_some_iff]
  exact exists_congr fun source => and_congr_left fun _ => hperm.mem_iff

/-- Sources that are read without a problem and define different names can be joined in any order. What
is read has no problem either and is the union of what is read of each. Places apart the grammars are the
same, and verifying them finds the same problems in the same order. -/
theorem ofSource_joined_of_perm (hperm : sources.Perm reordered)
    (hnone : ∀ source ∈ sources, (ofSource source).diagnostics = [])
    (hapart : DefineApart sources) :
    (ofSource (joined sources)).Unites sources ∧ (ofSource (joined reordered)).Unites sources ∧
      (ofSource (joined sources)).grammar.relabel .atOrigin = (ofSource (joined reordered)).grammar.relabel .atOrigin ∧
      ∀ start, ((ofSource (joined sources)).grammar.verify start).map Diagnostic.unpositioned =
        ((ofSource (joined reordered)).grammar.verify start).map Diagnostic.unpositioned := by
  have hunites := unites_ofSource_joined hnone hapart
  have hreordered : (ofSource (joined reordered)).Unites sources := by
    refine (unites_ofSource_joined (fun source hmem => hnone source (hperm.mem_iff.2 hmem)) ?_).perm hperm.symm
    exact (hperm.pairwise_iff List.disjoint_symm).1 hapart
  have hgrammar : (ofSource (joined sources)).grammar.relabel .atOrigin =
      (ofSource (joined reordered)).grammar.relabel .atOrigin := by
    apply Grammar.ext_find?
    intro key
    apply Option.ext
    intro production
    rw [hunites.find?_eq_some_iff, hreordered.find?_eq_some_iff]
  refine ⟨hunites, hreordered, hgrammar, ?_⟩
  intro start
  calc ((ofSource (joined sources)).grammar.verify start).map Diagnostic.unpositioned
    _ = ((ofSource (joined sources)).grammar.relabel .atOrigin).verify start :=
        (Grammar.verify_relabel .atOrigin _ start).symm
    _ = ((ofSource (joined reordered)).grammar.relabel .atOrigin).verify start := by rw [hgrammar]
    _ = ((ofSource (joined reordered)).grammar.verify start).map Diagnostic.unpositioned :=
      Grammar.verify_relabel .atOrigin _ start

/-- Sources one of which ends within a comment and another of which is empty. -/
def commentedSources : List (List UInt8) :=
  [Utf8.encode "a = \x7b b \x7d C . ; of", Utf8.encode "", Utf8.encode "d = .\nb = b | e .", Utf8.encode "\n c = ( d ) ."]

theorem ofSource_joined_commentedSources :
    (ofSource (joined commentedSources)).diagnostics = [] ∧
      (ofSource (joined commentedSources.reverse)).grammar.keys = ["a", "b", "c", "d"] ∧
      ((ofSource (joined commentedSources)).grammar.verify "a") =
        [.missingProduction "e" ⟨4, 9⟩, .unreachable "c" 6, .unreachable "d" 3] ∧
      ((ofSource (joined commentedSources.reverse)).grammar.verify "a").map Diagnostic.unpositioned =
        [.missingProduction "e" ⟨0, 0⟩, .unreachable "c" 0, .unreachable "d" 0] := by
  have hnone : ∀ source ∈ commentedSources, (ofSource source).diagnostics = [] := by decide +kernel
  have hapart : DefineApart commentedSources := by
    unfold DefineApart List.Disjoint
    decide +kernel
  have hverify : (ofSource (joined commentedSources)).grammar.verify "a" =
      [.missingProduction "e" ⟨4, 9⟩, .unreachable "c" 6, .unreachable "d" 3] := by decide +kernel
  obtain ⟨hunites, _, _, hsame⟩ :=
    ofSource_joined_of_perm (List.reverse_perm commentedSources).symm hnone hapart
  refine ⟨hunites.diagnostics_eq, by decide +kernel, hverify, ?_⟩
  rw [← hsame, hverify]
  rfl

end Reading

end GrammarCheck
