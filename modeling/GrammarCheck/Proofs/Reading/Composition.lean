import GrammarCheck.Proofs.Reading.Shape
import Mathlib.Data.List.TakeWhile

/-!
# Sources one after the other

Tokens that are read without a syntax problem leave the reader between two productions, so that the
tokens after them are read as they would be alone. Only the names make a difference: a production is
repeated if the first tokens define its name, and then their definition is the one that stays.
-/

namespace GrammarCheck

/-! ### Repeated names -/

namespace Diagnostic

def isDuplicate : Diagnostic → Bool
  | .duplicateProduction .. => true
  | _ => false

/-- The diagnostic of a repeated name, pointing to the earlier grammar if that has the name. -/
def redirected (earlier : Grammar) : Diagnostic → Diagnostic
  | .duplicateProduction name line previousLine =>
    .duplicateProduction name line (((earlier.find? name).map (·.name.line)).getD previousLine)
  | other => other

theorem ArisesAt.isDuplicate_eq_false {token : Token} {problem : Diagnostic} (harises : problem.ArisesAt token) :
    problem.isDuplicate = false := by
  cases harises <;> rfl

end Diagnostic

namespace Grammar

/-- The diagnostic of an entry with a key that the earlier grammar has. -/
def clash? (earlier : Grammar) (entry : String × Production) : Option Diagnostic :=
  (earlier.find? entry.1).map fun previous => .duplicateProduction entry.1 entry.2.name.line previous.name.line

/-- The diagnostics of the keys that both grammars have, one for each. -/
def clashes (earlier later : Grammar) : List Diagnostic := later.entries.filterMap earlier.clash?

/-- The grammar holds what the earlier one holds, and what the later one holds under other keys. -/
def Combines (both earlier later : Grammar) : Prop :=
  ∀ key, both.find? key = (earlier.find? key).or (later.find? key)

variable {both earlier later : Grammar} {key : String} {production previous : Production}

theorem combines_empty (earlier : Grammar) : earlier.Combines earlier .empty := by
  intro key
  rw [find?_empty, Option.or_none]

theorem Combines.insert (hcombines : both.Combines earlier later) (hnew : earlier.find? key = none) :
    (both.insert key production).Combines earlier (later.insert key production) := by
  intro wanted
  rw [find?_insert, find?_insert]
  split
  · next hwanted => rw [hwanted, hnew, Option.none_or]
  · exact hcombines wanted

theorem Combines.insert_later (hcombines : both.Combines earlier later) (hfind : earlier.find? key = some previous) :
    both.Combines earlier (later.insert key production) := by
  intro wanted
  rw [find?_insert]
  split
  · next hwanted => rw [hcombines, hwanted, hfind, Option.some_or, Option.some_or]
  · exact hcombines wanted

theorem Combines.mem_keys_iff (hcombines : both.Combines earlier later) (key : String) :
    key ∈ both.keys ↔ key ∈ earlier.keys ∨ key ∈ later.keys := by
  rw [Grammar.mem_keys_iff, Grammar.mem_keys_iff, Grammar.mem_keys_iff, hcombines]
  cases earlier.find? key <;> simp

theorem Combines.find?_of_mem (hcombines : both.Combines earlier later) (hmem : key ∈ earlier.keys) :
    both.find? key = earlier.find? key := by
  obtain ⟨production, hfind⟩ := Grammar.mem_keys_iff.1 hmem
  rw [hcombines, hfind, Option.some_or]

theorem Combines.find?_of_not_mem (hcombines : both.Combines earlier later) (hmem : key ∉ earlier.keys) :
    both.find? key = later.find? key := by
  rw [hcombines, not_mem_keys_iff.1 hmem, Option.none_or]

end Grammar

namespace Reading

/-! ### One event after another grammar and alone -/

/-- What is read after the earlier grammar, next to what is read alone. -/
structure Follows (after : Reading) (earlier : Grammar) (alone : Reading) : Prop where
  combines : after.grammar.Combines earlier alone.grammar
  others_eq : after.diagnostics.filter (!·.isDuplicate) = alone.diagnostics.filter (!·.isDuplicate)
  duplicates_perm : (after.diagnostics.filter (·.isDuplicate)).Perm
    ((alone.diagnostics.filter (·.isDuplicate)).map (·.redirected earlier) ++
      (alone.definitions.map Production.entry).filterMap earlier.clash?)

variable {after alone : Reading} {earlier : Grammar} {production previous : Production} {problem : Diagnostic}

theorem Follows.report (hfollows : after.Follows earlier alone) (hproblem : problem.isDuplicate = false) :
    (report problem after).Follows earlier (report problem alone) := by
  refine ⟨hfollows.combines, ?_, ?_⟩
  · simp only [diagnostics_report, List.filter_cons, hproblem, Bool.not_false, if_true, hfollows.others_eq]
  · simp only [diagnostics_report, definitions_report, List.filter_cons, hproblem, Bool.false_eq_true, if_false]
    exact hfollows.duplicates_perm

theorem Follows.report_redirected (hfollows : after.Follows earlier alone) (name : String) (line previousLine : Nat) :
    (Reading.report ((Diagnostic.duplicateProduction name line previousLine).redirected earlier) after).Follows earlier
      (Reading.report (.duplicateProduction name line previousLine) alone) := by
  refine ⟨hfollows.combines, ?_, ?_⟩
  · exact hfollows.others_eq
  · exact hfollows.duplicates_perm.cons _

theorem Follows.define (hfollows : after.Follows earlier alone)
    (hnew : earlier.find? production.name.spelling = none) :
    (Reading.define production after).Follows earlier (Reading.define production alone) := by
  refine ⟨hfollows.combines, hfollows.others_eq, ?_⟩
  have hclash : earlier.clash? production.entry = none := by rw [Grammar.clash?, Production.entry, hnew, Option.map_none]
  simp only [diagnostics_define, definitions_define, List.map_cons, List.filterMap_cons, hclash]
  exact hfollows.duplicates_perm

theorem Follows.clash (hfollows : after.Follows earlier alone)
    (hfind : earlier.find? production.name.spelling = some previous) :
    (Reading.report (.duplicateProduction production.name.spelling production.name.line previous.name.line) after).Follows
      earlier (Reading.define production alone) := by
  refine ⟨hfollows.combines, hfollows.others_eq, ?_⟩
  have hclash : earlier.clash? production.entry =
      some (.duplicateProduction production.name.spelling production.name.line previous.name.line) := by
    rw [Grammar.clash?, Production.entry, hfind, Option.map_some]
  simp only [diagnostics_report, diagnostics_define, definitions_define, List.map_cons, List.filterMap_cons, hclash]
  exact (hfollows.duplicates_perm.cons _).trans List.perm_middle.symm

/-- By induction on the events, with both grammars as they are after each. -/
theorem follows_ofEvents {both later : Grammar} {events : List Event} (hcombines : both.Combines earlier later)
    (hproblems : ∀ problem, .problem problem ∈ events → problem.isDuplicate = false) :
    (ofEvents both events).Follows earlier (ofEvents later events) := by
  induction events generalizing both later with
  | nil => exact ⟨hcombines, rfl, List.Perm.refl _⟩
  | cons event rest ih =>
    have hrest : ∀ problem, .problem problem ∈ rest → problem.isDuplicate = false :=
      fun problem hmem => hproblems problem (List.mem_cons_of_mem _ hmem)
    cases event with
    | problem problem => exact (ih hcombines hrest).report (hproblems problem List.mem_cons_self)
    | production production =>
      by_cases hkind : production.name.kind = .nonTerminal
      · have hboth := hcombines production.name.spelling
        cases hlater : later.find? production.name.spelling with
        | some previous =>
          rw [ofEvents_repeated hkind hlater]
          have hfollows := (ih hcombines hrest).report_redirected production.name.spelling production.name.line
            previous.name.line
          cases hearlier : earlier.find? production.name.spelling with
          | some first =>
            rw [hearlier, Option.some_or] at hboth
            rw [ofEvents_repeated hkind hboth]
            rwa [Diagnostic.redirected, hearlier] at hfollows
          | none =>
            rw [hearlier, hlater, Option.none_or] at hboth
            rw [ofEvents_repeated hkind hboth]
            rwa [Diagnostic.redirected, hearlier] at hfollows
        | none =>
          rw [ofEvents_new hkind hlater]
          cases hearlier : earlier.find? production.name.spelling with
          | some first =>
            rw [hearlier, Option.some_or] at hboth
            rw [ofEvents_repeated hkind hboth]
            exact (ih (hcombines.insert_later hearlier) hrest).clash hearlier
          | none =>
            rw [hearlier, hlater, Option.none_or] at hboth
            rw [ofEvents_new hkind hboth]
            exact (ih (hcombines.insert hearlier) hrest).define hearlier
      · rw [ofEvents_unnamed hkind, ofEvents_unnamed hkind]
        exact ih hcombines hrest

end Reading

/-! ### Tokens one after the other -/

namespace TokenStream

variable {first second : List Token}

theorem ofTokens_of_open (hopen : ∀ token ∈ first, token.isEndOfInput = false) :
    ofTokens first = ⟨first, .endOfInputAfter first, []⟩ := by
  have hdrop : first.dropWhile (!·.isEndOfInput) = [] := by
    apply List.dropWhile_eq_nil_iff.2
    intro token hmem
    rw [hopen token hmem, Bool.not_false]
  rw [ofTokens, hdrop]

theorem ofTokens_append (hopen : ∀ token ∈ first, token.isEndOfInput = false)
    (hended : ∃ token ∈ second, token.isEndOfInput = true) :
    ofTokens (first ++ second) = { ofTokens second with body := first ++ (ofTokens second).body } := by
  have hpasses : ∀ token ∈ first, (!token.isEndOfInput) = true := by
    intro token hmem
    rw [hopen token hmem, Bool.not_false]
  have hdrop : second.dropWhile (!·.isEndOfInput) ≠ [] := by
    obtain ⟨token, hmem, hend⟩ := hended
    intro hnil
    have hpassed := List.dropWhile_eq_nil_iff.1 hnil token hmem
    rw [hend] at hpassed
    contradiction
  obtain ⟨stop, trailing, hsplit⟩ := List.exists_cons_of_ne_nil hdrop
  rw [ofTokens, ofTokens, List.dropWhile_append_of_pos hpasses, hsplit, List.takeWhile_append_of_pos hpasses]

end TokenStream

namespace Reading

/-- What two sources in a row are read as. The earlier one stays as it is, and the later one adds to
it what it has under other keys. Its problems are reported as if it stood alone; its repeated names
point to the first definition in both, and the names that it has in common with the earlier one are
repeated as well. -/
structure ComposedOf (both earlier later : Reading) : Prop where
  mem_keys_iff : ∀ key, key ∈ both.grammar.keys ↔ key ∈ earlier.grammar.keys ∨ key ∈ later.grammar.keys
  find?_of_mem : ∀ key ∈ earlier.grammar.keys, both.grammar.find? key = earlier.grammar.find? key
  find?_of_not_mem : ∀ key ∉ earlier.grammar.keys, both.grammar.find? key = later.grammar.find? key
  others_eq : both.diagnostics.filter (!·.isDuplicate) = later.diagnostics.filter (!·.isDuplicate)
  duplicates_perm : ∃ repeated, both.diagnostics.filter (·.isDuplicate) = earlier.diagnostics ++ repeated ∧
    repeated.Perm ((later.diagnostics.filter (·.isDuplicate)).map (·.redirected earlier.grammar) ++
      earlier.grammar.clashes later.grammar)

theorem clean_events_of_isDuplicate {tokens : List Token}
    (honly : ∀ problem ∈ (ofTokens tokens).diagnostics, problem.isDuplicate = true) :
    Clean (TokenStream.ofTokens tokens).events := by
  intro problem hmem
  obtain ⟨token, _, harises⟩ :=
    TokenStream.arisesIn_of_mem_events (TokenStream.not_beginsTerm_stop tokens) _ hmem
  have hduplicate := honly problem (List.mem_append_left _ (mem_diagnostics_of_mem hmem))
  rw [harises.isDuplicate_eq_false] at hduplicate
  contradiction

theorem isDuplicate_of_mem_trailingProblems {tokens : List Token} :
    ∀ problem ∈ trailingProblems tokens, problem.isDuplicate = false := by
  cases tokens with
  | nil => simp [trailingProblems]
  | cons first rest => exact List.forall_mem_singleton.2 rfl

/-- What is read in both of them, from what is read alone and from what follows the first. -/
theorem ofTokens_append_eq {first second : List Token} (hopen : ∀ token ∈ first, token.isEndOfInput = false)
    (honly : ∀ problem ∈ (ofTokens first).diagnostics, problem.isDuplicate = true)
    (hended : ∃ token ∈ second, token.isEndOfInput = true) :
    (ofTokens (first ++ second)).grammar =
        (ofEvents (ofTokens first).grammar (TokenStream.ofTokens second).events).grammar ∧
      (ofTokens (first ++ second)).diagnostics =
        (ofTokens first).diagnostics ++
          ((ofEvents (ofTokens first).grammar (TokenStream.ofTokens second).events).diagnostics ++
            trailingProblems (TokenStream.ofTokens second).trailing) := by
  have hclean := clean_events_of_isDuplicate honly
  obtain ⟨_, hafter⟩ := (TokenStream.clean_events_iff (TokenStream.kind_stop_ofTokens first)).1 hclean
  have hfirst := TokenStream.events_eq_of_after hafter
  have hstream := TokenStream.ofTokens_append hopen hended
  have hevents : (TokenStream.ofTokens (first ++ second)).events =
      (TokenStream.ofTokens first).events ++ (TokenStream.ofTokens second).events := by
    have hbody : (TokenStream.ofTokens first).body = first := by rw [TokenStream.ofTokens_of_open hopen]
    rw [hbody] at hafter hfirst
    rw [hstream, TokenStream.events_eq_outcome, Phase.outcome_append, hafter, hfirst]
    rfl
  have htrailing : (TokenStream.ofTokens first).trailing = [] := by rw [TokenStream.ofTokens_of_open hopen]
  refine ⟨?_, ?_⟩
  · rw [grammar_ofTokens, hevents, ofEvents_append]
    rfl
  · rw [diagnostics_ofTokens, diagnostics_ofTokens, hevents, ofEvents_append, hstream, htrailing, trailingProblems,
      List.append_nil]
    exact List.append_assoc _ _ _

/-- Tokens without syntax problems and tokens after them are read as their composition. -/
theorem composedOf_ofTokens_append {first second : List Token} (hopen : ∀ token ∈ first, token.isEndOfInput = false)
    (honly : ∀ problem ∈ (ofTokens first).diagnostics, problem.isDuplicate = true)
    (hended : ∃ token ∈ second, token.isEndOfInput = true) :
    (ofTokens (first ++ second)).ComposedOf (ofTokens first) (ofTokens second) := by
  obtain ⟨hgrammar, hdiagnostics⟩ := ofTokens_append_eq hopen honly hended
  have hproblems : ∀ problem, .problem problem ∈ (TokenStream.ofTokens second).events → problem.isDuplicate = false := by
    intro problem hmem
    obtain ⟨token, _, harises⟩ :=
      TokenStream.arisesIn_of_mem_events (TokenStream.not_beginsTerm_stop second) _ hmem
    exact harises.isDuplicate_eq_false
  have hfollows := follows_ofEvents (Grammar.combines_empty (ofTokens first).grammar) hproblems
  have hcombines : (ofTokens (first ++ second)).grammar.Combines (ofTokens first).grammar (ofTokens second).grammar := by
    rw [hgrammar]
    exact hfollows.combines
  have htrailing : ∀ problem ∈ trailingProblems (TokenStream.ofTokens second).trailing, problem.isDuplicate = false :=
    isDuplicate_of_mem_trailingProblems
  refine ⟨hcombines.mem_keys_iff, fun key => hcombines.find?_of_mem, fun key => hcombines.find?_of_not_mem, ?_, ?_⟩
  · have hearlier : (ofTokens first).diagnostics.filter (!·.isDuplicate) = [] := by
      apply List.filter_eq_nil_iff.2
      intro problem hmem
      simp [honly problem hmem]
    rw [hdiagnostics, diagnostics_ofTokens second, List.filter_append, List.filter_append, List.filter_append, hearlier,
      hfollows.others_eq, List.nil_append]
  · have hearlier : (ofTokens first).diagnostics.filter (·.isDuplicate) = (ofTokens first).diagnostics :=
      List.filter_eq_self.2 honly
    have hnone : (trailingProblems (TokenStream.ofTokens second).trailing).filter (·.isDuplicate) = [] := by
      apply List.filter_eq_nil_iff.2
      intro problem hmem
      simp [htrailing problem hmem]
    refine ⟨_, by rw [hdiagnostics, List.filter_append, List.filter_append, hearlier, hnone, List.append_nil], ?_⟩
    rw [diagnostics_ofTokens second, List.filter_append, hnone, List.append_nil]
    exact hfollows.duplicates_perm.trans
      (List.Perm.append_left _ ((entries_ofTokens_perm second).symm.filterMap _))

/-- The tokens of `a = .` and `a = B .`. -/
def repeatedName : List Token :=
  [⟨.nonTerminal, [0x61], ⟨1, 1⟩, 0⟩, ⟨.equals, [], ⟨1, 3⟩, 1⟩, ⟨.terminator, [], ⟨1, 5⟩, 2⟩,
   ⟨.nonTerminal, [0x61], ⟨2, 1⟩, 3⟩, ⟨.equals, [], ⟨2, 3⟩, 4⟩, ⟨.terminal, [0x42], ⟨2, 5⟩, 5⟩,
   ⟨.terminator, [], ⟨2, 7⟩, 6⟩]

/-- The tokens of `b = | A .`, `b = .`, `a = b .` and `a = .`, and a full stop after the end of input. -/
def repeatedNames : List Token :=
  [⟨.nonTerminal, [0x62], ⟨3, 1⟩, 0⟩, ⟨.equals, [], ⟨3, 3⟩, 1⟩, ⟨.bar, [], ⟨3, 5⟩, 2⟩, ⟨.terminal, [0x41], ⟨3, 7⟩, 3⟩,
   ⟨.terminator, [], ⟨3, 9⟩, 4⟩, ⟨.nonTerminal, [0x62], ⟨4, 1⟩, 5⟩, ⟨.equals, [], ⟨4, 3⟩, 6⟩,
   ⟨.terminator, [], ⟨4, 5⟩, 7⟩, ⟨.nonTerminal, [0x61], ⟨5, 1⟩, 8⟩, ⟨.equals, [], ⟨5, 3⟩, 9⟩,
   ⟨.nonTerminal, [0x62], ⟨5, 5⟩, 10⟩, ⟨.terminator, [], ⟨5, 7⟩, 11⟩, ⟨.nonTerminal, [0x61], ⟨6, 1⟩, 12⟩,
   ⟨.equals, [], ⟨6, 3⟩, 13⟩, ⟨.terminator, [], ⟨6, 5⟩, 14⟩, ⟨.endOfInput, [], ⟨7, 1⟩, 15⟩,
   ⟨.terminator, [], ⟨7, 2⟩, 16⟩]

theorem composedOf_repeatedNames :
    (ofTokens repeatedName).diagnostics = [.duplicateProduction "a" 2 1] ∧
      (ofTokens repeatedNames).diagnostics =
        [.emptySequence ⟨3, 5⟩ "OR", .duplicateProduction "b" 4 3, .duplicateProduction "a" 6 5,
         .trailingTokens ⟨7, 2⟩ 1 "TERMINATOR"] ∧
      (ofTokens (repeatedName ++ repeatedNames)).diagnostics =
        [.duplicateProduction "a" 2 1, .emptySequence ⟨3, 5⟩ "OR", .duplicateProduction "b" 4 3,
         .duplicateProduction "a" 5 1, .duplicateProduction "a" 6 1, .trailingTokens ⟨7, 2⟩ 1 "TERMINATOR"] ∧
      (ofTokens (repeatedName ++ repeatedNames)).ComposedOf (ofTokens repeatedName) (ofTokens repeatedNames) := by
  have honly : (ofTokens repeatedName).diagnostics = [.duplicateProduction "a" 2 1] := by decide
  refine ⟨honly, by decide, by decide, ?_⟩
  apply composedOf_ofTokens_append
  · decide
  · rw [honly]
    exact List.forall_mem_singleton.2 rfl
  · decide

end Reading

end GrammarCheck
