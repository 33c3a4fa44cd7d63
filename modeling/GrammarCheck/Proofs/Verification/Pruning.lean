import GrammarCheck.Proofs.Verification.Agreement

/-!
# Leaving out what is not reached

Productions that verifying reports as unreachable can be left out of a grammar. A search of what is left
meets the same names, none of which is one of those left out, so that it reports the same problems in
the same order, and of the unreachable productions those that are left.
-/

namespace GrammarCheck

namespace Grammar

variable {grammar : Grammar} {start : String} {removed : List String}

theorem not_mem_visitedKeys_of_unreachable (hstores : grammar.StoresSyntax) (hstart : grammar.contains start = true)
    {key : String} {line : Nat} (hmem : .unreachable key line ∈ grammar.verify start) :
    key ∉ (grammar.search start).visitedKeys := by
  obtain ⟨entry, _, hunvisited, hentry⟩ := (mem_verify_iff_of_unreachableKey? hstores hstart rfl).1 hmem
  cases hentry
  exact hunvisited

/-- Names that are no keys stay so, and keys that are met are not among those left out. -/
theorem agreesOnSearch_restrict (hremoved : ∀ key ∈ removed, key ∉ (grammar.search start).visitedKeys) :
    grammar.AgreesOnSearch (grammar.restrict (· ∉ removed)) start := by
  intro name hmet
  rw [find?_restrict]
  split
  · rfl
  · next hleftOut =>
    have hmem : name ∈ removed := by simpa using hleftOut
    have hcontains : ¬grammar.contains name = true :=
      fun hcontains => hremoved name hmem (mem_visitedKeys_of_met hmet hcontains)
    rw [contains, Option.isSome_iff_ne_none, not_not] at hcontains
    exact hcontains.symm

/-- Leaving out productions that are reported as unreachable takes their reports away and changes nothing
else of what verifying reports. -/
theorem verify_restrict (hstores : grammar.StoresSyntax) (hstart : grammar.contains start = true)
    (hremoved : ∀ key ∈ removed, ∃ line, .unreachable key line ∈ grammar.verify start) :
    (grammar.restrict (· ∉ removed)).verify start =
      (grammar.verify start).filter (·.unreachableKey?.all (· ∉ removed)) := by
  have hunvisited : ∀ key ∈ removed, key ∉ (grammar.search start).visitedKeys := by
    intro key hkey
    obtain ⟨line, hmem⟩ := hremoved key hkey
    exact not_mem_visitedKeys_of_unreachable hstores hstart hmem
  have hwalks : ((grammar.search start).visitedKeys.flatMap grammar.walk).filter
      (·.unreachableKey?.all (· ∉ removed)) = (grammar.search start).visitedKeys.flatMap grammar.walk := by
    apply List.filter_eq_self.2
    intro diagnostic hmem
    obtain ⟨key, _, hmem⟩ := List.mem_flatMap.1 hmem
    rw [unreachableKey?_of_mem_walk hstores hmem]
    rfl
  have hentries : ((grammar.entries.filter (·.1 ∉ (grammar.search start).visitedKeys)).map unreachableEntry).filter
      (·.unreachableKey?.all (· ∉ removed)) =
        ((grammar.restrict (· ∉ removed)).entries.filter (·.1 ∉ (grammar.search start).visitedKeys)).map
          unreachableEntry := by
    rw [List.filter_map, restrict, List.filter_filter, List.filter_filter]
    congr 2
    funext entry
    exact Bool.and_comm _ _
  rw [(agreesOnSearch_restrict hunvisited).verify_eq hstart, verify_eq_append hstart, List.filter_append, hwalks,
    hentries]

/-- In `a = x B .`, `c = d .`, `d = c ( ) .` and `e = a .` the last three are not reached from `a`. -/
theorem verify_restrict_cycle :
    let grammar := (Reading.ofSource (Utf8.encode "a = x B .\nc = d .\nd = c ( ) .\ne = a .")).grammar
    grammar.StoresSyntax ∧ grammar.contains "a" = true ∧
      grammar.verify "a" = [.missingProduction "x" ⟨1, 5⟩, .unreachable "c" 2, .unreachable "d" 3, .unreachable "e" 4] ∧
      (grammar.restrict (· ∉ ["d", "e"])).verify "a" = [.missingProduction "x" ⟨1, 5⟩, .unreachable "c" 2] := by
  intro grammar
  have hstores : grammar.StoresSyntax := by decide +kernel
  have hstart : grammar.contains "a" = true := by decide +kernel
  have hverify : grammar.verify "a" =
      [.missingProduction "x" ⟨1, 5⟩, .unreachable "c" 2, .unreachable "d" 3, .unreachable "e" 4] := by decide +kernel
  have hremoved : ∀ key ∈ ["d", "e"], ∃ line, .unreachable key line ∈ grammar.verify "a" := by
    rw [hverify]
    simp
  refine ⟨hstores, hstart, hverify, ?_⟩
  rw [verify_restrict hstores hstart hremoved, hverify]
  decide

end Grammar

end GrammarCheck
