import GrammarCheck.Proofs.Verification.Worklist
import GrammarCheck.Reading.Basic
import Mathlib.Logic.Relation

/-!
# Every round of a verification

At any moment the keys reached are those of the productions that are or have been on the worklist, each of them
once. That holds in the middle of a walk as well, with the names that the walk has met so far. A production comes
off the worklist no more often than the grammar has productions, so the worklist becomes empty in any grammar. What
has been reported then is what verifying the grammar reports.

All of it is read off a search that has come as far, and the search ends because fewer productions remain after
each round.
-/

namespace GrammarCheck

namespace Verification

/-- The keys of the productions that have been taken off the worklist and of those that are on it. -/
def keys (state : Verification) : List String := (state.popped ++ state.pending).map (·.1)

/-- Any number of rounds lead from one state to the other. -/
def Rounds (grammar : Grammar) : Verification → Verification → Prop :=
  Relation.ReflTransGen fun state later => state.round? grammar = some later

/-- What holds of a verification that has walked through some productions to the end, and in the next one has met
these names and problems so far. -/
structure Sound (grammar : Grammar) (start : String) (walked : List (String × Production))
    (met : List Expression.Occurrence) (state : Verification) : Prop where
  reached_subset : ∀ key ∈ state.reached, grammar.contains key = true
  mem_reached_iff : ∀ key, key ∈ state.reached ↔ key ∈ state.keys
  nodup : state.keys.Nodup
  find?_eq : ∀ entry ∈ state.popped ++ state.pending, grammar.find? entry.1 = some entry.2
  named : ∀ key ∈ state.reached,
    key = start ∨ (∃ entry ∈ walked, grammar.Refers entry.1 key) ∨
      ∃ token, .reference token ∈ met ∧ token.spelling = key
  closed : ∀ entry ∈ walked, ∀ key, grammar.Refers entry.1 key → key ∈ state.reached
  met_reached : ∀ token, .reference token ∈ met → grammar.contains token.spelling = true →
    token.spelling ∈ state.reached

/-! ### One production off the worklist, or none -/

variable {grammar : Grammar} {state popped : Verification} {entry : String × Production}

theorem exists_of_pop? (hpop : state.pop? = some (entry, popped)) :
    ∃ rest, state.pending = entry :: rest ∧
      { state with pending := rest, popped := state.popped ++ [entry] } = popped := by
  unfold pop? at hpop
  split at hpop
  · contradiction
  · next first rest hpending =>
    obtain ⟨rfl, hpopped⟩ := Prod.mk.inj (Option.some.inj hpop)
    exact ⟨rest, hpending, hpopped⟩

theorem round?_of_pop? (grammar : Grammar) (hpop : state.pop? = some (entry, popped)) :
    state.round? grammar = some (popped.production grammar entry.2) := by
  rw [round?, hpop, Option.map_some]

theorem pending_of_pop? (hpop : state.pop? = none) : state.pending = [] := by
  unfold pop? at hpop
  split at hpop
  · assumption
  · contradiction

theorem finish?_of_pop? (grammar : Grammar) (hpop : state.pop? = none) (rounds : Nat) :
    state.finish? grammar rounds = some state := by
  cases rounds with
  | zero => exact if_pos (pending_of_pop? hpop)
  | succ rounds => rw [finish?, round?, hpop, Option.map_none]

/-! ### Productions that have not been reached -/

/-- As many keys as there are productions are all the keys there are. -/
theorem mem_reached_of_size_le (hsubset : ∀ key ∈ state.reached, grammar.contains key = true)
    (hsize : grammar.size ≤ state.reached.card) (hentry : entry ∈ grammar.entries) : entry.1 ∈ state.reached := by
  have hkeys : state.reached ⊆ grammar.keys.toFinset := by
    intro key hkey
    obtain ⟨production, hfind⟩ := Option.isSome_iff_exists.1 (hsubset key hkey)
    exact List.mem_toFinset.2 (List.mem_map.2 ⟨(key, production), Grammar.find?_eq_some_iff.1 hfind, rfl⟩)
  have hlength := List.toFinset_card_le grammar.keys
  rw [Grammar.keys, List.length_map] at hlength
  rw [Finset.eq_of_subset_of_card_le hkeys (Nat.le_trans hlength hsize)]
  exact List.mem_toFinset.2 (List.mem_map_of_mem hentry)

theorem problems_reportUnreachable (hsubset : ∀ key ∈ state.reached, grammar.contains key = true) :
    (state.reportUnreachable grammar).problems = state.problems ++
      (grammar.entries.filter (·.1 ∉ state.reached)).map fun entry => .unreachable entry.1 entry.2.name.line := by
  unfold reportUnreachable
  split
  · rfl
  · next hcard =>
    have hnone : grammar.entries.filter (·.1 ∉ state.reached) = [] := by
      refine List.filter_eq_nil_iff.2 fun entry hentry => ?_
      simpa using mem_reached_of_size_le hsubset (Nat.le_of_not_lt hcard) hentry
    rw [hnone, List.map_nil, List.append_nil]

end Verification

theorem Expression.Occurrence.mem_filterMap_key?_iff {met : List Expression.Occurrence} {key : String} :
    key ∈ met.filterMap key? ↔ ∃ token, .reference token ∈ met ∧ token.spelling = key := by
  rw [List.mem_filterMap]
  constructor
  · rintro ⟨token | problem, hmem, hkey⟩
    · exact ⟨token, hmem, Option.some.inj hkey⟩
    · contradiction
  · rintro ⟨token, hmem, rfl⟩
    exact ⟨.reference token, hmem, rfl⟩

namespace Search

variable {grammar : Grammar} {start : String} {root : Production} {search : Search} {state later : Verification}
  {entry : String × Production} {popped : Verification} {walked : List (String × Production)}
  {names : List String} {met : List Expression.Occurrence}

/-! ### What a search has reached -/

theorem Follows.mem_keys_iff (hfollows : search.Follows grammar names) {key : String} :
    key ∈ search.visitedKeys ++ search.pendingKeys ↔ key ∈ names ∧ grammar.contains key = true := by
  rw [List.mem_append, hfollows.pending_eq, List.mem_reverse, List.mem_filter, Grammar.mem_keysAmong, decide_eq_true_eq]
  constructor
  · rintro (hvisited | ⟨hnamed, -⟩)
    · refine ⟨hfollows.visited_subset hvisited, ?_⟩
      obtain ⟨entry, hentry, rfl⟩ := List.mem_map.1 hvisited
      rw [Grammar.contains, hfollows.find?_eq entry (List.mem_append_left _ hentry), Option.isSome_some]
    · exact hnamed
  · intro hnamed
    by_cases hvisited : key ∈ search.visitedKeys
    · exact .inl hvisited
    · exact .inr ⟨hnamed, hvisited⟩

theorem Follows.nodup_keys (hfollows : search.Follows grammar names) (hnodup : search.visitedKeys.Nodup) :
    (search.visitedKeys ++ search.pendingKeys).Nodup := by
  rw [hfollows.pending_eq]
  refine List.nodup_append'.2 ⟨hnodup, List.nodup_reverse.2 ((Grammar.nodup_keysAmong names).filter _), ?_⟩
  intro key hvisited hwaits
  have hunvisited := (List.mem_filter.1 (List.mem_reverse.1 hwaits)).2
  exact of_decide_eq_true hunvisited hvisited

namespace Mirrors

theorem keys_eq (hmirrors : search.Mirrors grammar state) :
    state.keys = search.visitedKeys ++ search.pendingKeys := by
  rw [Verification.keys, ← hmirrors.visited_eq, ← hmirrors.pending_eq, List.map_append]
  rfl

theorem namesMet_eq (hmirrors : search.Mirrors grammar state) (start : String) :
    search.namesMet grammar start = start :: state.popped.flatMap (grammar.namedBy ·.1) := by
  rw [namesMet, visitedKeys, List.flatMap_map, hmirrors.visited_eq]

/-- Reached are the keys among the names that have been met. -/
theorem mem_reached_iff (hmirrors : search.Mirrors grammar state) (hfollows : search.Follows grammar names)
    {key : String} : key ∈ state.reached ↔ key ∈ names ∧ grammar.contains key = true := by
  have hunreached := (hmirrors.unreached_eq key).symm.trans (hfollows.unreached_eq key)
  constructor
  · intro hreached
    have hcontains := hmirrors.reached_subset key hreached
    refine ⟨?_, hcontains⟩
    by_contra hnamed
    rw [if_pos hreached, if_neg hnamed] at hunreached
    rw [Grammar.contains, ← hunreached] at hcontains
    contradiction
  · rintro ⟨hnamed, hcontains⟩
    by_contra hreached
    rw [if_neg hreached, if_pos hnamed] at hunreached
    rw [Grammar.contains, hunreached] at hcontains
    contradiction

/-- The names that the search has met come from the start, the walks that are over and the part of the next one. -/
theorem sound (hmirrors : search.Mirrors grammar state)
    (hfollows : search.Follows grammar
      (start :: walked.flatMap (grammar.namedBy ·.1) ++ met.filterMap Expression.Occurrence.key?))
    (hnodup : search.visitedKeys.Nodup) : state.Sound grammar start walked met := by
  have hreached (key : String) : key ∈ state.reached ↔
      (key = start ∨ (∃ entry ∈ walked, key ∈ grammar.namedBy entry.1) ∨
        ∃ token, .reference token ∈ met ∧ token.spelling = key) ∧ grammar.contains key = true := by
    rw [hmirrors.mem_reached_iff hfollows, List.mem_append, List.mem_cons, List.mem_flatMap,
      Expression.Occurrence.mem_filterMap_key?_iff, or_assoc]
  constructor
  · exact hmirrors.reached_subset
  · intro key
    rw [hmirrors.mem_reached_iff hfollows, hmirrors.keys_eq, hfollows.mem_keys_iff]
  · rw [hmirrors.keys_eq]
    exact hfollows.nodup_keys hnodup
  · rw [← hmirrors.visited_eq, ← hmirrors.pending_eq]
    exact hfollows.find?_eq
  · intro key hkey
    obtain ⟨rfl | ⟨entry, hentry, hnamed⟩ | hmet, hcontains⟩ := (hreached key).1 hkey
    · exact .inl rfl
    · exact .inr (.inl ⟨entry, hentry, Grammar.refers_iff.2 ⟨hnamed, hcontains⟩⟩)
    · exact .inr (.inr hmet)
  · intro entry hentry key hrefers
    obtain ⟨hnamed, hcontains⟩ := Grammar.refers_iff.1 hrefers
    exact (hreached key).2 ⟨.inr (.inl ⟨entry, hentry, hnamed⟩), hcontains⟩
  · intro token htoken hcontains
    exact (hreached token.spelling).2 ⟨.inr (.inr ⟨token, htoken, rfl⟩), hcontains⟩

/-- A production is taken off the worklist when the search visits it. -/
theorem pop (hmirrors : search.Mirrors grammar state) (hpop : state.pop? = some (entry, popped)) :
    ∃ rest, search.pending = entry :: rest ∧
      Mirrors grammar { search with visited := search.visited ++ [entry], pending := rest } popped := by
  obtain ⟨rest, hpending, rfl⟩ := Verification.exists_of_pop? hpop
  exact ⟨rest, hmirrors.pending_eq.trans hpending, congrArg (· ++ [entry]) hmirrors.visited_eq, rfl,
    hmirrors.reached_subset, hmirrors.unreached_eq⟩

end Mirrors

/-! ### Between two rounds -/

theorem finish_of_step? {next : Search} (hstep : search.step? = some next) : search.finish = next.finish := by
  rw [finish]
  split
  · next later hlater => rw [Option.some.inj (hlater.symm.trans hstep)]
  · next hnone => rw [hnone] at hstep; contradiction

theorem finish_of_step?_eq_none (hstep : search.step? = none) : search.finish = search := by
  rw [finish]
  split
  · next later hlater => rw [hstep] at hlater; contradiction
  · rfl

/-- Between two rounds the search has come as far, and has found what has been reported. -/
structure Reports (grammar : Grammar) (start : String) (search : Search) (state : Verification) : Prop where
  mirrors : search.Mirrors grammar state
  valid : search.Valid grammar start
  problems_eq : state.problems = search.visited.flatMap (·.2.findings grammar)
  finish_eq : search.finish = grammar.search start
  visited_le : search.visited.length + search.remaining ≤ grammar.size

theorem reports_start (hroot : grammar.find? start = some root) :
    (Search.start grammar start).Reports grammar start (Verification.empty.push start root) := by
  have hempty : Mirrors grammar { visited := [], pending := [], unreached := grammar } .empty :=
    ⟨rfl, rfl, fun key hkey => absurd hkey (Finset.notMem_empty key),
      fun key => (if_neg (Finset.notMem_empty key)).symm⟩
  have hdiscover := hempty.discover start
  rw [hroot, Option.elim_some] at hdiscover
  have hvisited : (Search.start grammar start).visited = [] := visited_foldl_discover [start] _
  refine ⟨hdiscover, valid_start grammar start, ?_, rfl, ?_⟩
  · rw [Verification.problems_push, hvisited]
    rfl
  · rw [hvisited, List.length_nil, Nat.zero_add]
    exact remaining_discover_le _ start

namespace Reports

theorem sound (hreports : search.Reports grammar start state) : state.Sound grammar start state.popped [] := by
  refine hreports.mirrors.sound ?_ hreports.valid.visitsLatest.nodup
  rw [← hreports.mirrors.namesMet_eq, List.filterMap_nil, List.append_nil]
  exact hreports.valid.follows

theorem length_popped_le (hreports : search.Reports grammar start state) : state.popped.length ≤ grammar.size := by
  have hlength := hreports.visited_le
  rw [hreports.mirrors.visited_eq] at hlength
  omega

theorem round (hreports : search.Reports grammar start state) (hpop : state.pop? = some (entry, popped)) :
    ∃ next, search.step? = some next ∧ next.Reports grammar start (popped.production grammar entry.2) := by
  obtain ⟨rest, hpending, hpopped⟩ := hreports.mirrors.pop hpop
  obtain ⟨hmirrors, hproblems⟩ := hpopped.foldl_visit entry.2 entry.2.occurrences
  rw [← Production.references_eq] at hmirrors
  have hstep : search.step? = some (entry.2.references.foldl discover
      { search with visited := search.visited ++ [entry], pending := rest }) := by
    rw [step?, hpending]
  have hvisited := visited_foldl_discover entry.2.references
    { search with visited := search.visited ++ [entry], pending := rest }
  rw [Verification.production_eq_foldl]
  refine ⟨_, hstep, hmirrors, hreports.valid.step? hstep, ?_, ?_, ?_⟩
  · obtain ⟨rest, -, rfl⟩ := Verification.exists_of_pop? hpop
    rw [hproblems, hvisited, List.flatMap_append, List.flatMap_singleton, ← hreports.problems_eq]
    rfl
  · rw [← finish_of_step? hstep, hreports.finish_eq]
  · have hless := remaining_step?_lt hstep
    have hlength := hreports.visited_le
    rw [hvisited, List.length_append, List.length_singleton]
    omega

/-- In the middle of the walk of the next round, whatever it has met so far. -/
theorem sound_walk (hreports : search.Reports grammar start state) (hpop : state.pop? = some (entry, popped))
    (met : List Expression.Occurrence) :
    Verification.Sound grammar start state.popped met
      (met.foldl (Verification.visit grammar (entry.2.name.kind == .nonTerminal)) popped) := by
  obtain ⟨rest, hpending, hpopped⟩ := hreports.mirrors.pop hpop
  obtain ⟨next, hstep, hnext⟩ := hreports.round hpop
  have hmirrors := (hpopped.foldl_visit entry.2 met).1
  have hfollows := (hreports.valid.follows.visit hpending).foldl_discover (met.filterMap Expression.Occurrence.key?)
  refine hmirrors.sound ?_ ?_
  · rwa [hreports.mirrors.namesMet_eq] at hfollows
  · -- a walk leaves alone what has been visited, so the keys are those after the whole round
    rw [step?, hpending, Option.some.injEq] at hstep
    have hnodup := hnext.valid.visitsLatest.nodup
    rw [← hstep, visitedKeys, visited_foldl_discover] at hnodup
    rwa [visitedKeys, visited_foldl_discover]

/-- By induction on the rounds. -/
theorem rounds (hreports : search.Reports grammar start state) (hrounds : Verification.Rounds grammar state later) :
    ∃ next : Search, next.Reports grammar start later := by
  induction hrounds with
  | refl => exact ⟨search, hreports⟩
  | @tail earlier later _ hround ih =>
    obtain ⟨before, hbefore⟩ := ih
    obtain ⟨⟨entry, popped⟩, hpop, rfl⟩ := Option.map_eq_some_iff.1 hround
    obtain ⟨next, -, hnext⟩ := hbefore.round hpop
    exact ⟨next, hnext⟩

/-- By induction on what remains, of which each round leaves less. -/
theorem exists_final (hreports : search.Reports grammar start state) :
    ∃ final, Verification.Rounds grammar state final ∧ final.pending = [] ∧
      (grammar.search start).Reports grammar start final ∧
      ∀ rounds, search.remaining ≤ rounds → state.finish? grammar rounds = some final := by
  induction hremaining : search.remaining using Nat.strongRecOn generalizing search state with
  | _ remaining ih =>
    cases hpop : state.pop? with
    | none =>
      -- the search is over as well, so it is the one of the whole grammar
      have hpending := Verification.pending_of_pop? hpop
      have hstep : search.step? = none := by
        rw [step?, hreports.mirrors.pending_eq, hpending]
      refine ⟨state, .refl, hpending, ?_, fun rounds _ => Verification.finish?_of_pop? grammar hpop rounds⟩
      rwa [← hreports.finish_eq, finish_of_step?_eq_none hstep]
    | some entry =>
      obtain ⟨entry, popped⟩ := entry
      have hround := Verification.round?_of_pop? grammar hpop
      obtain ⟨next, hstep, hnext⟩ := hreports.round hpop
      have hless : next.remaining < remaining := hremaining ▸ remaining_step?_lt hstep
      obtain ⟨final, hrounds, hpending, hfinal, hfinish⟩ := ih _ hless hnext rfl
      refine ⟨final, .head hround hrounds, hpending, hfinal, ?_⟩
      intro rounds hle
      obtain ⟨rounds, rfl⟩ : ∃ fewer, rounds = fewer + 1 := ⟨rounds - 1, by omega⟩
      rw [Verification.finish?, hround]
      exact hfinish rounds (by omega)

theorem problems_reportUnreachable (hreports : (grammar.search start).Reports grammar start state)
    (hstart : grammar.contains start = true) :
    (state.reportUnreachable grammar).problems = grammar.verify start := by
  have hunreached : (grammar.search start).unreached = grammar.restrict (· ∉ state.reached) := by
    apply Grammar.ext_find?
    intro key
    rw [hreports.mirrors.unreached_eq, Grammar.find?_restrict]
    by_cases hreached : key ∈ state.reached <;> simp [hreached]
  rw [Verification.problems_reportUnreachable hreports.mirrors.reached_subset, hreports.problems_eq, Grammar.verify,
    if_pos hstart]
  dsimp only
  rw [hunreached]
  rfl

end Reports

end Search

namespace Verification

variable {grammar : Grammar} {start : String} {root : Production}

/-- As many rounds as there are productions are enough. -/
theorem exists_final (hroot : grammar.find? start = some root) :
    ∃ final, Rounds grammar (empty.push start root) final ∧ final.pending = [] ∧
      (grammar.search start).Reports grammar start final ∧
      ∀ rounds, grammar.size ≤ rounds → (empty.push start root).finish? grammar rounds = some final := by
  have hreports := Search.reports_start hroot
  obtain ⟨final, hrounds, hpending, hfinal, hfinish⟩ := hreports.exists_final
  have hremaining := hreports.visited_le
  exact ⟨final, hrounds, hpending, hfinal, fun rounds hle => hfinish rounds (by omega)⟩

/-- With as many rounds as there are productions, verifying with a worklist has a result. It is what verifying
reports. -/
theorem verify?_eq (grammar : Grammar) (start : String) {rounds : Nat} (hrounds : grammar.size ≤ rounds) :
    verify? grammar start rounds = some (grammar.verify start) := by
  unfold verify?
  cases hroot : grammar.find? start with
  | none =>
    have hstart : ¬grammar.contains start = true := by simp [Grammar.contains, hroot]
    rw [Grammar.verify, if_neg hstart]
    rfl
  | some root =>
    have hstart : grammar.contains start = true := by simp [Grammar.contains, hroot]
    obtain ⟨final, -, -, hfinal, hfinish⟩ := exists_final hroot
    simp only [hfinish rounds hrounds, Option.bind_eq_bind, Option.bind_some, hfinal.problems_reportUnreachable hstart]
    rfl

/-- Every round of a verification starts and ends in a state that is sound, and so does every moment of the walk in
between. There are no more rounds than productions, whatever the productions name. In the end everything
that a production reached names has been reached. -/
theorem sound_rounds (hroot : grammar.find? start = some root) :
    (∀ state, Rounds grammar (empty.push start root) state →
      state.Sound grammar start state.popped [] ∧ state.popped.length ≤ grammar.size ∧
      ∀ entry popped, state.pop? = some (entry, popped) →
        state.round? grammar =
          some (entry.2.occurrences.foldl (visit grammar (entry.2.name.kind == .nonTerminal)) popped) ∧
        ∀ met, met <+: entry.2.occurrences →
          Sound grammar start state.popped met
            (met.foldl (visit grammar (entry.2.name.kind == .nonTerminal)) popped)) ∧
    ∃ final, Rounds grammar (empty.push start root) final ∧ final.pending = [] ∧
      (∀ key ∈ final.reached, ∀ referred, grammar.Refers key referred → referred ∈ final.reached) ∧
      ∀ rounds, grammar.size ≤ rounds →
        (empty.push start root).finish? grammar rounds = some final ∧
        verify? grammar start rounds = some (grammar.verify start) := by
  refine ⟨?_, ?_⟩
  · intro state hrounds
    obtain ⟨search, hsearch⟩ := (Search.reports_start hroot).rounds hrounds
    refine ⟨hsearch.sound, hsearch.length_popped_le, ?_⟩
    intro entry popped hpop
    refine ⟨?_, fun met _ => hsearch.sound_walk hpop met⟩
    rw [round?_of_pop? grammar hpop, production_eq_foldl]
  · obtain ⟨final, hrounds, hpending, hfinal, hfinish⟩ := exists_final hroot
    have hsound := hfinal.sound
    refine ⟨final, hrounds, hpending, ?_, ?_⟩
    · -- nothing is on the worklist, so the production of the key has been walked through
      intro key hkey referred hrefers
      rw [hsound.mem_reached_iff, keys, hpending, List.append_nil] at hkey
      obtain ⟨entry, hentry, rfl⟩ := List.mem_map.1 hkey
      exact hsound.closed entry hentry referred hrefers
    · intro rounds hle
      exact ⟨hfinish rounds hle, verify?_eq grammar start hle⟩

/-- In `a = b a .`, `b = c ( a | x ) .`, `c = .` and `d = a .` names lead in circles. -/
theorem sound_rounds_circles :
    let grammar := (Reading.ofSource (Utf8.encode "a = b a .\nb = c ( a | x ) .\nc = .\nd = a .")).grammar
    ∃ root final, grammar.find? "a" = some root ∧ Rounds grammar (empty.push "a" root) final ∧
      final.pending = [] ∧ final.Sound grammar "a" final.popped [] ∧ final.keys = ["a", "b", "c"] ∧
      verify? grammar "a" 4 = some [.missingProduction "x" ⟨2, 13⟩, .unreachable "d" 4] := by
  intro grammar
  have hkeys : (grammar.find? "a").bind (fun root => ((empty.push "a" root).finish? grammar 4).map keys) =
      some ["a", "b", "c"] := by decide +kernel
  obtain ⟨root, hroot, hfinal⟩ := Option.bind_eq_some_iff.1 hkeys
  obtain ⟨hsound, final, hrounds, hpending, -, hfinish⟩ := sound_rounds hroot
  obtain ⟨hfinish, hverify⟩ := hfinish 4 (by decide +kernel)
  have hreported : grammar.verify "a" = [.missingProduction "x" ⟨2, 13⟩, .unreachable "d" 4] := by decide +kernel
  rw [hfinish, Option.map_some, Option.some.injEq] at hfinal
  rw [hreported] at hverify
  exact ⟨root, final, hroot, hrounds, hpending, (hsound final hrounds).1, hfinal, hverify⟩

end Verification

end GrammarCheck
