import GrammarCheck.Proofs.Verification.Discovery
import GrammarCheck.Verification.Basic

/-!
# Exactly what verifying reports

A walk through an expression meets its problems from left to right. The problems of a grammar are
those that walks through the reached productions meet, in the order of the visits, and then one for
each production that is not reached.
-/

namespace GrammarCheck

namespace Expression

mutual

/-- The problems met on a walk through an expression. In a lexical production names have to be
non-terminals. -/
def walk (grammar : Grammar) (lexical : Bool) : Expression → List Diagnostic
  | .alternative branches => walkAll grammar lexical branches
  | .sequence terms => walkAll grammar lexical terms
  | .name token =>
    (if grammar.contains token.spelling then [] else [.missingProduction token.spelling token.position]) ++
      (if lexical && token.kind == .terminal then [.nonLexicalReference token.spelling token.position] else [])
  | .literal _ => []
  | .enclosed _ _ body => body.walk grammar lexical
  | .malformed _ problem => [problem]

def walkAll (grammar : Grammar) (lexical : Bool) : List Expression → List Diagnostic
  | [] => []
  | expression :: rest => expression.walk grammar lexical ++ walkAll grammar lexical rest

end

end Expression

/-- The problems met on a walk through the right-hand side, if there is one. -/
def Production.walk (production : Production) (grammar : Grammar) : List Diagnostic :=
  production.expression.elim [] (·.walk grammar (production.name.kind == .nonTerminal))

namespace Grammar

/-- The problems met on a walk through the production under a key. -/
def walk (grammar : Grammar) (key : String) : List Diagnostic :=
  (grammar.find? key).elim [] (·.walk grammar)

/-- The productions under the keys with a property. -/
def restrict (grammar : Grammar) (holds : String → Bool) : Grammar :=
  ⟨grammar.entries.filter (holds ·.1), grammar.ordered.filter _⟩

end Grammar

/-! ### Walks -/

mutual

theorem Expression.flatMap_findingsAt_occurrences (production : Production) (grammar : Grammar) :
    ∀ expression : Expression, expression.occurrences.flatMap (production.findingsAt grammar) =
      expression.walk grammar (production.name.kind == .nonTerminal)
  | .alternative branches => by
    rw [occurrences, walk, flatMap_findingsAt_occurrencesAll production grammar branches]
  | .sequence terms => by
    rw [occurrences, walk, flatMap_findingsAt_occurrencesAll production grammar terms]
  | .name token => by simp [occurrences, walk, Production.findingsAt]
  | .literal _ => rfl
  | .enclosed _ _ body => by
    rw [occurrences, walk, flatMap_findingsAt_occurrences production grammar body]
  | .malformed _ problem => rfl

theorem Expression.flatMap_findingsAt_occurrencesAll (production : Production) (grammar : Grammar) :
    ∀ expressions : List Expression,
      (occurrencesAll expressions).flatMap (production.findingsAt grammar) =
        walkAll grammar (production.name.kind == .nonTerminal) expressions
  | [] => rfl
  | expression :: rest => by
    rw [occurrencesAll, walkAll, List.flatMap_append,
      flatMap_findingsAt_occurrences production grammar expression,
      flatMap_findingsAt_occurrencesAll production grammar rest]

end

theorem Production.findings_eq_walk (production : Production) (grammar : Grammar) :
    production.findings grammar = production.walk grammar := by
  unfold findings occurrences walk
  cases production.expression with
  | none => rfl
  | some expression => exact expression.flatMap_findingsAt_occurrences production grammar

namespace Grammar

variable {grammar : Grammar} {start : String} {keys : List String}

theorem find?_restrict (grammar : Grammar) (holds : String → Bool) (key : String) :
    (grammar.restrict holds).find? key = if holds key then grammar.find? key else none := by
  unfold find? restrict
  rw [List.find?_filter]
  split
  · next hholds =>
    congr 2
    funext entry
    by_cases hentry : entry.1 = key <;> simp [hentry, hholds]
  · next hholds =>
    rw [Option.map_eq_none_iff, List.find?_eq_none]
    rintro entry - hentry
    simp only [beq_iff_eq, decide_eq_true_eq] at hentry
    exact hholds (hentry.2 ▸ hentry.1)

/-! ### Orders of visits -/

theorem VisitsLatest.of_append {earlier later : List String}
    (hlatest : grammar.VisitsLatest start (earlier ++ later)) : grammar.VisitsLatest start earlier := by
  rintro before key after rfl
  exact hlatest before key (after ++ later) (by simp)

theorem VisitsLatest.last_mem_waiting {last : String} (hlatest : grammar.VisitsLatest start (keys ++ [last])) :
    last ∈ grammar.waiting start keys :=
  List.mem_of_getLast? (hlatest keys last [] rfl)

theorem mem_waiting {key : String} :
    key ∈ grammar.waiting start keys ↔
      (key = start ∨ ∃ visited ∈ keys, key ∈ grammar.namedBy visited) ∧
        grammar.contains key = true ∧ key ∉ keys := by
  simp [waiting, mem_keysAmong, and_assoc]

theorem VisitsLatest.nodup (hlatest : grammar.VisitsLatest start keys) : keys.Nodup := by
  induction keys using List.reverseRecOn with
  | nil => exact List.nodup_nil
  | append_singleton keys last ih =>
    have hlast := mem_waiting.mp hlatest.last_mem_waiting
    refine List.nodup_append.mpr ⟨ih hlatest.of_append, List.nodup_singleton last, ?_⟩
    rintro key hkey _ hmem rfl
    rw [List.mem_singleton] at hmem
    exact hlast.2.2 (hmem ▸ hkey)

theorem VisitsLatest.reaches (hlatest : grammar.VisitsLatest start keys) {key : String} (hkey : key ∈ keys) :
    grammar.Reaches start key := by
  induction keys using List.reverseRecOn generalizing key with
  | nil => simp at hkey
  | append_singleton keys last ih =>
    rcases List.mem_append.mp hkey with hkey | hkey
    · exact ih hlatest.of_append hkey
    · obtain rfl := List.mem_singleton.mp hkey
      obtain ⟨rfl | ⟨visited, hvisited, hnamed⟩, hcontains, -⟩ := mem_waiting.mp hlatest.last_mem_waiting
      · exact .refl
      · exact (ih hlatest.of_append hvisited).tail (refers_iff.mpr ⟨hnamed, hcontains⟩)

/-- If no key waits any more, every reached key has been visited. -/
theorem mem_of_reaches (hwaiting : grammar.waiting start keys = []) (hstart : grammar.contains start = true)
    {key : String} (hreaches : grammar.Reaches start key) : key ∈ keys := by
  have hclosed (key : String) (hnamed : key = start ∨ ∃ visited ∈ keys, key ∈ grammar.namedBy visited)
      (hcontains : grammar.contains key = true) : key ∈ keys := by
    by_contra hunvisited
    have hwaits := mem_waiting.mpr ⟨hnamed, hcontains, hunvisited⟩
    simp [hwaiting] at hwaits
  induction hreaches with
  | refl => exact hclosed start (.inl rfl) hstart
  | tail _ hrefers ih =>
    obtain ⟨hnamed, hcontains⟩ := refers_iff.mp hrefers
    exact hclosed _ (.inr ⟨_, ih, hnamed⟩) hcontains

theorem VisitsLatest.head?_eq (hlatest : grammar.VisitsLatest start keys) (hne : keys ≠ []) :
    keys.head? = some start := by
  cases keys with
  | nil => exact absurd rfl hne
  | cons key rest =>
    have hkey := List.mem_of_getLast? (hlatest [] key rest rfl)
    obtain ⟨rfl | ⟨visited, hvisited, -⟩, -⟩ := mem_waiting.mp hkey
    · rfl
    · simp at hvisited

/-! ### The finished search -/

theorem valid_search (grammar : Grammar) (start : String) : (grammar.search start).Valid grammar start :=
  (Search.valid_start grammar start).finish

theorem waiting_search (grammar : Grammar) (start : String) :
    grammar.waiting start (grammar.search start).visitedKeys = [] := by
  have hpending := (valid_search grammar start).follows.pending_eq
  rw [Search.pendingKeys, search, Search.pending_finish, List.map_nil, eq_comm, List.reverse_eq_nil_iff] at hpending
  exact hpending

/-- The search leaves the productions whose keys it has not visited. -/
theorem unreached_search (grammar : Grammar) (start : String) :
    (grammar.search start).unreached = grammar.restrict (· ∉ (grammar.search start).visitedKeys) := by
  have hfollows := (valid_search grammar start).follows
  apply ext_find?
  intro key
  rw [hfollows.unreached_eq, find?_restrict]
  by_cases hvisited : key ∈ (grammar.search start).visitedKeys
  · simp [hvisited, hfollows.visited_subset hvisited]
  · by_cases hnamed : key ∈ (grammar.search start).namesMet grammar start
    · have hcontains : ¬grammar.contains key = true := fun hcontains => by
        have hwaits : key ∈ grammar.waiting start (grammar.search start).visitedKeys :=
          mem_waiting.mpr ⟨by simpa [Search.namesMet] using hnamed, hcontains, hvisited⟩
        simp [waiting_search] at hwaits
      have hnone : grammar.find? key = none := by simpa [contains] using hcontains
      simp [hnamed, hvisited, hnone]
    · simp [hnamed, hvisited]

theorem flatMap_findings_visited (grammar : Grammar) (start : String) :
    (grammar.search start).visited.flatMap (fun entry => entry.2.findings grammar) =
      (grammar.search start).visitedKeys.flatMap grammar.walk := by
  have hfind := (valid_search grammar start).follows.find?_eq
  rw [Search.visitedKeys, List.flatMap_map]
  refine List.flatMap_congr fun entry hmem => ?_
  rw [walk, hfind entry (List.mem_append_left _ hmem), Production.findings_eq_walk]
  rfl

/-- Verifying reports what walks through the reached productions meet, each production once and the
one discovered last before the others, and then the productions that are not reached, by their keys.
A start that is no key is the only problem there is. -/
theorem verify_eq_walks_append_unreachable (grammar : Grammar) (start : String) :
    if grammar.contains start then
      ∃ keys : List String, keys.head? = some start ∧ keys.Nodup ∧
        (∀ key, key ∈ keys ↔ grammar.Reaches start key) ∧ grammar.VisitsLatest start keys ∧
        grammar.verify start = keys.flatMap grammar.walk ++
          (grammar.entries.filter (·.1 ∉ keys)).map fun entry => .unreachable entry.1 entry.2.name.line
    else grammar.verify start = [.noStartProduction start] := by
  split
  · next hstart =>
    have hlatest := (valid_search grammar start).visitsLatest
    have hreached : start ∈ (grammar.search start).visitedKeys :=
      mem_of_reaches (waiting_search grammar start) hstart .refl
    refine ⟨(grammar.search start).visitedKeys, hlatest.head?_eq (List.ne_nil_of_mem hreached), hlatest.nodup,
      fun key => ⟨hlatest.reaches, mem_of_reaches (waiting_search grammar start) hstart⟩, hlatest, ?_⟩
    rw [verify, if_pos hstart]
    dsimp only
    rw [flatMap_findings_visited, unreached_search]
    rfl
  · next hstart => rw [verify, if_neg hstart]

end Grammar

end GrammarCheck
