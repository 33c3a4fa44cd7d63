import GrammarCheck.Proofs.Verification.Agreement

/-!
# Adding a production

A production under a new key lets a search reach more and nothing less: what is reached without it is
reached with it, and productions on the way have the same problems but for the name that is now defined.
If nothing on the way refers to the new key, a search cannot tell the grammars apart, and the new
production is one more that is not reached.
-/

namespace GrammarCheck

namespace Production

variable {production : Production} {grammar : Grammar} {key : String}

/-- A new key takes away the reports that it is missing. -/
theorem findings_insert (hstores : production.StoresSyntax) (added : Production) :
    production.findings (grammar.insert key added) =
      (production.findings grammar).filter (·.missingName? != some key) := by
  rw [findings, findings, List.filter_flatMap]
  refine List.flatMap_congr fun occurrence hmem => ?_
  cases occurrence with
  | problem problem =>
    have hkept : problem.missingName? = none := Diagnostic.missingName?_of_isSyntax (hstores.isSyntax_of_mem hmem)
    simp [findingsAt, hkept]
  | reference token =>
    have hcontains : (grammar.insert key added).contains token.spelling =
        (token.spelling == key || grammar.contains token.spelling) := by
      rw [Grammar.contains, Grammar.find?_insert]
      split
      · next heq => simp [heq]
      · next hne => simp [hne, Grammar.contains]
    have hnonLexical (name : String) (position : Position) :
        (Diagnostic.nonLexicalReference name position).missingName? = none := rfl
    have hmissing (name : String) (position : Position) :
        (Diagnostic.missingProduction name position).missingName? = some name := rfl
    rw [findingsAt, findingsAt, hcontains, List.filter_append]
    congr 1
    · by_cases hkey : token.spelling = key <;> by_cases hkeys : grammar.contains token.spelling = true <;>
        simp [hkey, hkeys, hmissing]
    · split <;> simp [hnonLexical]

end Production

namespace Grammar

variable {grammar : Grammar} {start key : String} {added : Production}

/-! ### Entries -/

theorem ne_of_contains (hnew : grammar.contains key = false) {other : String} (hother : grammar.contains other = true) :
    other ≠ key := by
  rintro rfl
  rw [hnew] at hother
  contradiction

theorem find?_insert_of_contains (hnew : grammar.contains key = false) {other : String}
    (hother : grammar.contains other = true) : (grammar.insert key added).find? other = grammar.find? other := by
  rw [find?_insert, if_neg (ne_of_contains hnew hother)]

theorem contains_insert_of_contains {other : String} (hother : grammar.contains other = true) :
    (grammar.insert key added).contains other = true := by
  rw [contains, find?_insert]
  split
  · rfl
  · exact hother

theorem erase_insert (hnew : grammar.contains key = false) (added : Production) :
    (grammar.insert key added).erase key = grammar := by
  apply ext_find?
  intro other
  rw [find?_erase, find?_insert]
  split
  · next heq => rw [heq, ← Option.isNone_iff_eq_none.1 (Option.isSome_eq_false_iff.1 hnew)]
  · rfl

/-- A new entry stands between those with smaller keys and those with greater ones. -/
theorem exists_entries_insert (hnew : grammar.contains key = false) (added : Production) :
    ∃ before after, grammar.entries = before ++ after ∧
      (grammar.insert key added).entries = before ++ (key, added) :: after ∧
      (∀ entry ∈ before, entry.1 < key) ∧ ∀ entry ∈ after, key < entry.1 := by
  have hmem : (key, added) ∈ (grammar.insert key added).entries :=
    find?_eq_some_iff.1 (by rw [find?_insert, if_pos rfl])
  obtain ⟨before, after, hsplit⟩ := List.append_of_mem hmem
  have hordered := (grammar.insert key added).ordered
  rw [hsplit, List.pairwise_append, List.pairwise_cons] at hordered
  obtain ⟨_, ⟨hafter, _⟩, hbetween⟩ := hordered
  have hbefore : ∀ entry ∈ before, entry.1 < key :=
    fun entry hentry => hbetween entry hentry (key, added) List.mem_cons_self
  refine ⟨before, after, ?_, hsplit, hbefore, hafter⟩
  have hentries : grammar.entries = (grammar.insert key added).entries.filter (·.1 != key) :=
    congrArg entries (erase_insert hnew added).symm
  have hkeptBefore : before.filter (·.1 != key) = before :=
    List.filter_eq_self.2 fun entry hentry => bne_iff_ne.2 (String.ne_of_lt (hbefore entry hentry))
  have hkeptAfter : after.filter (·.1 != key) = after :=
    List.filter_eq_self.2 fun entry hentry => bne_iff_ne.2 (String.ne_of_lt (hafter entry hentry)).symm
  rw [hentries, hsplit, List.filter_append, List.filter_cons_of_neg (by simp), hkeptBefore, hkeptAfter]

/-! ### What is reached -/

theorem Refers.insert (hnew : grammar.contains key = false) {referring referred : String}
    (hrefers : grammar.Refers referring referred) : (grammar.insert key added).Refers referring referred := by
  obtain ⟨production, expression, token, hfind, hexpression, hnames, hspelling, hcontains⟩ := hrefers
  refine ⟨production, expression, token, ?_, hexpression, hnames, hspelling, contains_insert_of_contains hcontains⟩
  rw [find?_insert_of_contains hnew (by rw [contains, hfind, Option.isSome_some]), hfind]

theorem Reaches.insert (hnew : grammar.contains key = false) {other : String} (hreaches : grammar.Reaches start other) :
    (grammar.insert key added).Reaches start other := by
  induction hreaches with
  | refl => exact .refl
  | tail _ hrefers ih => exact ih.tail (hrefers.insert hnew)

/-- What is visited without the new production is visited with it. -/
theorem visitedKeys_subset_insert (hnew : grammar.contains key = false) (hstart : grammar.contains start = true) :
    (grammar.search start).visitedKeys ⊆ ((grammar.insert key added).search start).visitedKeys := by
  intro other hvisited
  have hreaches : grammar.Reaches start other := (valid_search grammar start).visitsLatest.reaches hvisited
  exact mem_of_reaches (waiting_search _ start) (contains_insert_of_contains hstart) (hreaches.insert hnew)

theorem contains_of_mem_visitedKeys {other : String} (hvisited : other ∈ (grammar.search start).visitedKeys) :
    grammar.contains other = true := by
  obtain ⟨entry, hmem, rfl⟩ := List.mem_map.1 hvisited
  rw [contains, find?_of_mem_visited hmem, Option.isSome_some]

/-! ### What is reported -/

theorem walk_insert (hstores : grammar.StoresSyntax) (hnew : grammar.contains key = false) {other : String}
    (hother : grammar.contains other = true) :
    (grammar.insert key added).walk other = (grammar.walk other).filter (·.missingName? != some key) := by
  obtain ⟨production, hfind⟩ := Option.isSome_iff_exists.1 hother
  rw [walk, walk, find?_insert_of_contains hnew hother, hfind, Option.elim_some, Option.elim_some,
    ← Production.findings_eq_walk, ← Production.findings_eq_walk, Production.findings_insert (hstores.of_find? hfind)]

/-- Problems on the way stay on the way. -/
theorem filter_walks_subperm (hstores : grammar.StoresSyntax) (hnew : grammar.contains key = false)
    (hstart : grammar.contains start = true) :
    (((grammar.search start).visitedKeys.flatMap grammar.walk).filter (·.missingName? != some key)).Subperm
      (((grammar.insert key added).search start).visitedKeys.flatMap (grammar.insert key added).walk) := by
  have hwalks : ((grammar.search start).visitedKeys.flatMap grammar.walk).filter (·.missingName? != some key) =
      (grammar.search start).visitedKeys.flatMap (grammar.insert key added).walk := by
    rw [List.filter_flatMap]
    exact List.flatMap_congr fun other hvisited =>
      (walk_insert hstores hnew (contains_of_mem_visitedKeys hvisited)).symm
  rw [hwalks]
  exact subperm_flatMap
    ((valid_search grammar start).visitsLatest.nodup.subperm (visitedKeys_subset_insert hnew hstart)) _

theorem StoresSyntax.insert (hstores : grammar.StoresSyntax) (hadded : added.StoresSyntax) :
    (grammar.insert key added).StoresSyntax := by
  intro production hmem
  obtain ⟨entry, hentry, rfl⟩ := List.mem_map.1 hmem
  rcases mem_insertEntry hentry with rfl | hentry
  · exact hadded
  · exact hstores entry.2 (List.mem_map.2 ⟨entry, hentry, rfl⟩)

/-- The problems that a production under the key cannot solve: all but the unreachable productions and the
reports that the key is missing. -/
def lastingProblems (grammar : Grammar) (start key : String) : List Diagnostic :=
  (grammar.verify start).filter fun problem => problem.unreachableKey?.isNone && problem.missingName? != some key

theorem lastingProblems_eq (hstores : grammar.StoresSyntax) (hstart : grammar.contains start = true) :
    grammar.lastingProblems start key =
      ((grammar.search start).visitedKeys.flatMap grammar.walk).filter (·.missingName? != some key) := by
  have hunreachable (entries : List (String × Production)) : (entries.map unreachableEntry).filter
      (fun problem => problem.unreachableKey?.isNone && problem.missingName? != some key) = [] := by
    rw [List.filter_map]
    exact congrArg (List.map _) (List.filter_eq_nil_iff.2 fun _ _ => Bool.false_ne_true)
  rw [lastingProblems, verify_eq_append hstart, List.filter_append, hunreachable, List.append_nil]
  refine List.filter_congr fun problem hmem => ?_
  obtain ⟨other, _, hmem⟩ := List.mem_flatMap.1 hmem
  rw [unreachableKey?_of_mem_walk hstores hmem]
  rfl

theorem missingName?_ne_of_mem_verify_insert (hstores : (grammar.insert key added).StoresSyntax) {problem : Diagnostic}
    (hmem : problem ∈ (grammar.insert key added).verify start) : problem.missingName? ≠ some key := by
  cases finds_of_mem_verify hmem with
  | noStart => simp [Diagnostic.missingName?]
  | @missing _ _ token hfind hnamed hmissing =>
    intro hname
    rw [Option.some.inj hname, contains, find?_insert, if_pos rfl] at hmissing
    contradiction
  | nonLexical => simp [Diagnostic.missingName?]
  | problem hfind hoccurs =>
    rw [Diagnostic.missingName?_of_isSyntax ((hstores.of_find? hfind).isSyntax_of_mem hoccurs)]
    simp
  | unreachable => simp [Diagnostic.missingName?]

/-- A new key to which nothing on the way refers is not met by a search. -/
theorem agreesOnSearch_insert (hnew : grammar.contains key = false) (hstart : grammar.contains start = true)
    (hnone : ∀ problem ∈ grammar.verify start, problem.missingName? ≠ some key) :
    grammar.AgreesOnSearch (grammar.insert key added) start := by
  intro name hmet
  have hne : name ≠ key := by
    rintro rfl
    rcases List.mem_cons.1 hmet with rfl | hnamed
    · rw [hnew] at hstart
      contradiction
    · obtain ⟨visited, hvisited, hnamed⟩ := List.mem_flatMap.1 hnamed
      obtain ⟨problem, hproblem, hname⟩ := exists_missing_mem_walk hnamed hnew
      refine hnone problem ?_ hname
      rw [verify_eq_append hstart]
      exact List.mem_append_left _ (List.mem_flatMap.2 ⟨visited, hvisited, hproblem⟩)
  rw [find?_insert, if_neg hne]

/-- The report on the new production stands between those on smaller keys and those on greater ones. -/
theorem exists_verify_insert (hstores : grammar.StoresSyntax) (hnew : grammar.contains key = false)
    (hstart : grammar.contains start = true)
    (hnone : ∀ problem ∈ grammar.verify start, problem.missingName? ≠ some key) (added : Production) :
    ∃ found before after, grammar.verify start = found ++ before ++ after ∧
      (grammar.insert key added).verify start = found ++ before ++ .unreachable key added.name.line :: after ∧
      (∀ problem ∈ found, problem.unreachableKey? = none) ∧
      (∀ problem ∈ before, ∃ other, problem.unreachableKey? = some other ∧ other < key) ∧
      ∀ problem ∈ after, ∃ other, problem.unreachableKey? = some other ∧ key < other := by
  obtain ⟨before, after, hentries, hinserted, hbefore, hafter⟩ := exists_entries_insert hnew added
  have hunvisited : key ∉ (grammar.search start).visitedKeys :=
    fun hvisited => ne_of_contains hnew (contains_of_mem_visitedKeys hvisited) rfl
  refine ⟨(grammar.search start).visitedKeys.flatMap grammar.walk,
    (before.filter (·.1 ∉ (grammar.search start).visitedKeys)).map unreachableEntry,
    (after.filter (·.1 ∉ (grammar.search start).visitedKeys)).map unreachableEntry, ?_, ?_, ?_, ?_, ?_⟩
  · rw [verify_eq_append hstart, hentries, List.filter_append, List.map_append, List.append_assoc]
  · rw [(agreesOnSearch_insert hnew hstart hnone).verify_eq hstart, hinserted, List.filter_append,
      List.filter_cons_of_pos (by simpa using hunvisited), List.map_append, List.map_cons, List.append_assoc]
    rfl
  · intro problem hmem
    obtain ⟨other, _, hmem⟩ := List.mem_flatMap.1 hmem
    exact unreachableKey?_of_mem_walk hstores hmem
  · intro problem hmem
    obtain ⟨entry, hentry, rfl⟩ := List.mem_map.1 hmem
    exact ⟨entry.1, rfl, hbefore entry (List.mem_of_mem_filter hentry)⟩
  · intro problem hmem
    obtain ⟨entry, hentry, rfl⟩ := List.mem_map.1 hmem
    exact ⟨entry.1, rfl, hafter entry (List.mem_of_mem_filter hentry)⟩

/-- A production under a new key leaves the problems of a grammar as they are, but for productions that are
now reached and for names that the key defines. None of the other productions becomes unreachable. If
no name that is missing is the key, the new production is reported as unreachable, at its place in the
order of the keys, and nothing else changes. -/
theorem verify_insert (hstores : grammar.StoresSyntax) (hadded : added.StoresSyntax)
    (hstart : grammar.contains start = true) (hnew : grammar.contains key = false) :
    (grammar.lastingProblems start key).Subperm ((grammar.insert key added).verify start) ∧
      (∀ problem ∈ (grammar.insert key added).verify start, problem.missingName? ≠ some key) ∧
      (∀ problem ∈ (grammar.insert key added).verify start, ∀ other, problem.unreachableKey? = some other →
        other = key ∨ problem ∈ grammar.verify start) ∧
      ((∀ problem ∈ grammar.verify start, problem.missingName? ≠ some key) →
        ∃ found before after, grammar.verify start = found ++ before ++ after ∧
          (grammar.insert key added).verify start = found ++ before ++ .unreachable key added.name.line :: after ∧
          (∀ problem ∈ found, problem.unreachableKey? = none) ∧
          (∀ problem ∈ before, ∃ other, problem.unreachableKey? = some other ∧ other < key) ∧
          ∀ problem ∈ after, ∃ other, problem.unreachableKey? = some other ∧ key < other) := by
  have hstart' : (grammar.insert key added).contains start = true := contains_insert_of_contains hstart
  have hstores' : (grammar.insert key added).StoresSyntax := hstores.insert hadded
  refine ⟨?_, fun problem => missingName?_ne_of_mem_verify_insert hstores', ?_,
    fun hnone => exists_verify_insert hstores hnew hstart hnone added⟩
  · rw [lastingProblems_eq hstores hstart, verify_eq_append hstart']
    exact (filter_walks_subperm hstores hnew hstart).trans (List.sublist_append_left _ _).subperm
  · intro problem hmem other hother
    obtain ⟨entry, hentry, hunvisited, rfl⟩ := (mem_verify_iff_of_unreachableKey? hstores' hstart' hother).1 hmem
    rcases mem_insertEntry hentry with rfl | hentry
    · exact .inl (Option.some.inj hother).symm
    · refine .inr ((mem_verify_iff_of_unreachableKey? hstores hstart hother).2 ⟨entry, hentry, ?_, rfl⟩)
      exact fun hvisited => hunvisited (visitedKeys_subset_insert hnew hstart hvisited)

/-- The start of `a = x y ( ) .`, `b = z .` and `d = a .` refers to `x` and not to `c`; the production added
refers to `b`. -/
theorem verify_insert_missing :
    let grammar := (Reading.ofSource (Utf8.encode "a = x y ( ) .\nb = z .\nd = a .")).grammar
    let added : Production := ⟨⟨.nonTerminal, [0x78], ⟨9, 1⟩, 0⟩, some (.name ⟨.nonTerminal, [0x62], ⟨9, 5⟩, 2⟩)⟩
    grammar.StoresSyntax ∧ added.StoresSyntax ∧ grammar.contains "a" = true ∧ grammar.contains "x" = false ∧
      grammar.contains "c" = false ∧
      grammar.verify "a" = [.missingProduction "x" ⟨1, 5⟩, .missingProduction "y" ⟨1, 7⟩,
        .emptySequence ⟨1, 11⟩ "END_GROUP", .unreachable "b" 2, .unreachable "d" 3] ∧
      (grammar.insert "x" added).verify "a" = [.missingProduction "y" ⟨1, 7⟩, .emptySequence ⟨1, 11⟩ "END_GROUP",
        .missingProduction "z" ⟨2, 5⟩, .unreachable "d" 3] ∧
      (grammar.lastingProblems "a" "x").Subperm ((grammar.insert "x" added).verify "a") ∧
      ∃ found before after, grammar.verify "a" = found ++ before ++ after ∧
        (grammar.insert "c" added).verify "a" = found ++ before ++ .unreachable "c" 9 :: after := by
  intro grammar added
  have hstores : grammar.StoresSyntax := by decide +kernel
  have hadded : added.StoresSyntax := by decide +kernel
  have hstart : grammar.contains "a" = true := by decide +kernel
  have hmissing : grammar.contains "x" = false := by decide +kernel
  have hunused : grammar.contains "c" = false := by decide +kernel
  have hnone : ∀ problem ∈ grammar.verify "a", problem.missingName? ≠ some "c" := by decide +kernel
  obtain ⟨hlasting, _, _, _⟩ := verify_insert hstores hadded hstart hmissing
  obtain ⟨_, _, _, hinserted⟩ := verify_insert hstores hadded hstart hunused
  obtain ⟨found, before, after, hbefore, hafter, _⟩ := hinserted hnone
  exact ⟨hstores, hadded, hstart, hmissing, hunused, by decide +kernel, by decide +kernel, hlasting, found, before,
    after, hbefore, hafter⟩

end Grammar

end GrammarCheck
