import GrammarCheck.Proofs.Verification.Findings

/-!
# Grammars that agree where a search goes

What verifying reports depends on what a grammar holds under the names that its search meets, and on
its other entries only as far as they are listed as unreachable. Grammars that hold the same under
these names are visited in the same order: the order is determined by the keys that wait at each visit,
and these are keys among the names met before.
-/

namespace GrammarCheck

/-! ### Kinds of problems -/

namespace Diagnostic

/-- The key that is reported as unreachable. -/
def unreachableKey? : Diagnostic → Option String
  | .unreachable key _ => some key
  | _ => none

/-- The name that is reported to have no production. -/
def missingName? : Diagnostic → Option String
  | .missingProduction name _ => some name
  | _ => none

variable {problem : Diagnostic}

theorem unreachableKey?_of_isSyntax (hproblem : problem.isSyntax = true) : problem.unreachableKey? = none := by
  cases problem <;> first | rfl | contradiction

theorem missingName?_of_isSyntax (hproblem : problem.isSyntax = true) : problem.missingName? = none := by
  cases problem <;> first | rfl | contradiction

end Diagnostic

/-- What stands in place of missing terms in the production are problems with the syntax. -/
def Production.StoresSyntax (production : Production) : Prop :=
  ∀ problem ∈ production.problems, problem.isSyntax = true

instance (production : Production) : Decidable production.StoresSyntax :=
  inferInstanceAs (Decidable (∀ problem ∈ production.problems, problem.isSyntax = true))

def Grammar.StoresSyntax (grammar : Grammar) : Prop := ∀ production ∈ grammar.productions, production.StoresSyntax

instance (grammar : Grammar) : Decidable grammar.StoresSyntax :=
  inferInstanceAs (Decidable (∀ production ∈ grammar.productions, production.StoresSyntax))

namespace Production

variable {production : Production} {grammar other : Grammar}

theorem StoresSyntax.isSyntax_of_mem (hstores : production.StoresSyntax) {problem : Diagnostic}
    (hmem : .problem problem ∈ production.occurrences) : problem.isSyntax = true :=
  hstores problem (List.mem_filterMap.2 ⟨_, hmem, rfl⟩)

theorem spelling_mem_references {token : Token} (hmem : .reference token ∈ production.occurrences) :
    token.spelling ∈ production.references :=
  List.mem_filterMap.2 ⟨_, hmem, rfl⟩

/-- The problems with a production depend on which of the names in it are keys. -/
theorem findings_congr
    (hcontains : ∀ name ∈ production.references, other.contains name = grammar.contains name) :
    production.findings other = production.findings grammar := by
  refine List.flatMap_congr fun occurrence hmem => ?_
  cases occurrence with
  | problem problem => rfl
  | reference token => rw [findingsAt, findingsAt, hcontains token.spelling (spelling_mem_references hmem)]

theorem unreachableKey?_of_mem_findings (hstores : production.StoresSyntax) {diagnostic : Diagnostic}
    (hmem : diagnostic ∈ production.findings grammar) : diagnostic.unreachableKey? = none := by
  obtain ⟨occurrence, hoccurrence, hfound⟩ := List.mem_flatMap.1 hmem
  cases occurrence with
  | problem problem =>
    obtain rfl := List.mem_singleton.1 hfound
    exact Diagnostic.unreachableKey?_of_isSyntax (hstores.isSyntax_of_mem hoccurrence)
  | reference token =>
    rcases List.mem_append.1 hfound with hfound | hfound
    · split at hfound
      · contradiction
      · rw [List.mem_singleton.1 hfound]
        rfl
    · split at hfound
      · rw [List.mem_singleton.1 hfound]
        rfl
      · contradiction

/-- A name in the production that is no key is reported. -/
theorem exists_missing_mem_findings {name : String} (hmem : name ∈ production.references)
    (hmissing : grammar.contains name = false) :
    ∃ diagnostic ∈ production.findings grammar, diagnostic.missingName? = some name := by
  obtain ⟨occurrence, hoccurrence, hname⟩ := List.mem_filterMap.1 hmem
  cases occurrence with
  | problem problem => contradiction
  | reference token =>
    obtain rfl := Option.some.inj hname
    refine ⟨.missingProduction token.spelling token.position, List.mem_flatMap.2 ⟨_, hoccurrence, ?_⟩, rfl⟩
    rw [findingsAt, hmissing]
    exact List.mem_append_left _ List.mem_cons_self

end Production

namespace Grammar

variable {grammar other : Grammar} {start : String} {keys keys' : List String}

theorem StoresSyntax.of_find? (hstores : grammar.StoresSyntax) {key : String} {production : Production}
    (hfind : grammar.find? key = some production) : production.StoresSyntax :=
  hstores production (List.mem_map.2 ⟨_, find?_eq_some_iff.1 hfind, rfl⟩)

/-! ### The order of visits is determined -/

/-- By induction on what is left of one of the orders, with what both have in common before it. -/
theorem VisitsLatest.eq_of_common (common : List String) {rest rest' : List String}
    (hlatest : grammar.VisitsLatest start (common ++ rest)) (hlatest' : grammar.VisitsLatest start (common ++ rest'))
    (hwaiting : grammar.waiting start (common ++ rest) = [])
    (hwaiting' : grammar.waiting start (common ++ rest') = []) : rest = rest' := by
  induction rest generalizing common rest' with
  | nil =>
    cases rest' with
    | nil => rfl
    | cons key later =>
      have hlast := hlatest' common key later rfl
      rw [List.append_nil] at hwaiting
      rw [hwaiting] at hlast
      contradiction
  | cons key later ih =>
    have hlast := hlatest common key later rfl
    cases rest' with
    | nil =>
      rw [List.append_nil] at hwaiting'
      rw [hwaiting'] at hlast
      contradiction
    | cons key' later' =>
      obtain rfl : key = key' := Option.some.inj (hlast.symm.trans (hlatest' common key' later' rfl))
      rw [List.append_cons] at hlatest hlatest' hwaiting hwaiting'
      rw [ih (common ++ [key]) hlatest hlatest' hwaiting hwaiting']

/-- There is one order of visits after which no key waits. -/
theorem VisitsLatest.eq (hlatest : grammar.VisitsLatest start keys) (hlatest' : grammar.VisitsLatest start keys')
    (hwaiting : grammar.waiting start keys = []) (hwaiting' : grammar.waiting start keys' = []) : keys = keys' :=
  VisitsLatest.eq_of_common [] hlatest hlatest' hwaiting hwaiting'

/-! ### Agreeing grammars -/

/-- The grammars hold the same under the names that a search of the first one meets. -/
def AgreesOnSearch (grammar other : Grammar) (start : String) : Prop :=
  ∀ name ∈ (grammar.search start).namesMet grammar start, other.find? name = grammar.find? name

theorem subset_namesMet (hkeys : keys ⊆ (grammar.search start).visitedKeys) :
    start :: keys.flatMap grammar.namedBy ⊆ (grammar.search start).namesMet grammar start := by
  apply List.cons_subset_cons
  intro name hname
  obtain ⟨key, hkey, hname⟩ := List.mem_flatMap.1 hname
  exact List.mem_flatMap.2 ⟨key, hkeys hkey, hname⟩

theorem namedBy_subset_namesMet {key : String} (hkey : key ∈ (grammar.search start).visitedKeys) :
    grammar.namedBy key ⊆ (grammar.search start).namesMet grammar start :=
  fun _ hname => List.mem_cons_of_mem start (List.mem_flatMap.2 ⟨key, hkey, hname⟩)

/-- Keys among the names that a search meets are visited. -/
theorem mem_visitedKeys_of_met {name : String} (hmet : name ∈ (grammar.search start).namesMet grammar start)
    (hcontains : grammar.contains name = true) : name ∈ (grammar.search start).visitedKeys := by
  by_contra hunvisited
  have hwaits : name ∈ grammar.waiting start (grammar.search start).visitedKeys :=
    mem_waiting.2 ⟨by simpa [Search.namesMet] using hmet, hcontains, hunvisited⟩
  rw [waiting_search] at hwaits
  contradiction

namespace AgreesOnSearch

variable {key : String}

theorem contains_eq (hagrees : grammar.AgreesOnSearch other start) {name : String}
    (hmet : name ∈ (grammar.search start).namesMet grammar start) : other.contains name = grammar.contains name := by
  rw [contains, contains, hagrees name hmet]

theorem find?_eq (hagrees : grammar.AgreesOnSearch other start) (hkey : key ∈ (grammar.search start).visitedKeys) :
    other.find? key = grammar.find? key :=
  hagrees key ((valid_search grammar start).follows.visited_subset hkey)

/-- The names met up to a visit are the same, and so are the keys among them. -/
theorem waiting_eq (hagrees : grammar.AgreesOnSearch other start) (hkeys : keys ⊆ (grammar.search start).visitedKeys) :
    other.waiting start keys = grammar.waiting start keys := by
  have hnames : keys.flatMap other.namedBy = keys.flatMap grammar.namedBy := by
    refine List.flatMap_congr fun key hkey => ?_
    rw [namedBy, namedBy, hagrees.find?_eq (hkeys hkey)]
  have hcontains : (start :: keys.flatMap grammar.namedBy).filter other.contains =
      (start :: keys.flatMap grammar.namedBy).filter grammar.contains :=
    List.filter_congr fun name hname => hagrees.contains_eq (subset_namesMet hkeys hname)
  rw [waiting, waiting, hnames, keysAmong, keysAmong, hcontains]

/-- A search of either grammar visits the same keys in the same order. -/
theorem visitedKeys_eq (hagrees : grammar.AgreesOnSearch other start) :
    (other.search start).visitedKeys = (grammar.search start).visitedKeys := by
  apply VisitsLatest.eq (valid_search other start).visitsLatest ?_ (waiting_search other start)
  · rw [hagrees.waiting_eq (List.Subset.refl _), waiting_search]
  · intro earlier key later hsplit
    rw [hagrees.waiting_eq (hsplit ▸ List.subset_append_left _ _)]
    exact (valid_search grammar start).visitsLatest earlier key later hsplit

theorem walk_eq (hagrees : grammar.AgreesOnSearch other start) (hkey : key ∈ (grammar.search start).visitedKeys) :
    other.walk key = grammar.walk key := by
  have hcontains : ∀ name ∈ grammar.namedBy key, other.contains name = grammar.contains name :=
    fun name hname => hagrees.contains_eq (namedBy_subset_namesMet hkey hname)
  rw [walk, walk, hagrees.find?_eq hkey]
  rw [namedBy] at hcontains
  cases hfind : grammar.find? key with
  | none => rfl
  | some production =>
    rw [hfind] at hcontains
    rw [Option.elim_some, Option.elim_some, ← Production.findings_eq_walk, ← Production.findings_eq_walk]
    exact Production.findings_congr hcontains

end AgreesOnSearch

/-! ### What is reported -/

/-- The problem of an entry that has not been visited. -/
def unreachableEntry (entry : String × Production) : Diagnostic := .unreachable entry.1 entry.2.name.line

/-- The problems on the way and the entries that are not reached. -/
theorem verify_eq_append (hstart : grammar.contains start = true) :
    grammar.verify start = (grammar.search start).visitedKeys.flatMap grammar.walk ++
      (grammar.entries.filter (·.1 ∉ (grammar.search start).visitedKeys)).map unreachableEntry := by
  rw [verify, if_pos hstart]
  dsimp only
  rw [flatMap_findings_visited, unreached_search]
  rfl

theorem AgreesOnSearch.verify_eq (hagrees : grammar.AgreesOnSearch other start) (hstart : grammar.contains start = true) :
    other.verify start = (grammar.search start).visitedKeys.flatMap grammar.walk ++
      (other.entries.filter (·.1 ∉ (grammar.search start).visitedKeys)).map unreachableEntry := by
  have hcontains : other.contains start = true := (hagrees.contains_eq List.mem_cons_self).trans hstart
  rw [verify_eq_append hcontains, hagrees.visitedKeys_eq]
  congr 1
  exact List.flatMap_congr fun key hkey => hagrees.walk_eq hkey

/-- A name in a production on the way that is no key is reported. -/
theorem exists_missing_mem_walk {key name : String} (hname : name ∈ grammar.namedBy key)
    (hmissing : grammar.contains name = false) :
    ∃ diagnostic ∈ grammar.walk key, diagnostic.missingName? = some name := by
  rw [namedBy] at hname
  rw [walk]
  cases hfind : grammar.find? key with
  | none =>
    rw [hfind] at hname
    contradiction
  | some production =>
    rw [hfind] at hname
    rw [Option.elim_some, ← Production.findings_eq_walk]
    exact Production.exists_missing_mem_findings hname hmissing

theorem unreachableKey?_of_mem_walk (hstores : grammar.StoresSyntax) {key : String} {diagnostic : Diagnostic}
    (hmem : diagnostic ∈ grammar.walk key) : diagnostic.unreachableKey? = none := by
  rw [walk] at hmem
  cases hfind : grammar.find? key with
  | none =>
    rw [hfind] at hmem
    contradiction
  | some production =>
    rw [hfind, Option.elim_some, ← Production.findings_eq_walk] at hmem
    exact Production.unreachableKey?_of_mem_findings (hstores.of_find? hfind) hmem

/-- Exactly the entries that have not been visited are reported as unreachable. -/
theorem mem_verify_iff_of_unreachableKey? (hstores : grammar.StoresSyntax) (hstart : grammar.contains start = true)
    {diagnostic : Diagnostic} {key : String} (hkey : diagnostic.unreachableKey? = some key) :
    diagnostic ∈ grammar.verify start ↔
      ∃ entry ∈ grammar.entries, entry.1 ∉ (grammar.search start).visitedKeys ∧ unreachableEntry entry = diagnostic := by
  rw [verify_eq_append hstart, List.mem_append, List.mem_map]
  simp only [List.mem_filter, decide_eq_true_eq, and_assoc]
  refine or_iff_right ?_
  intro hwalk
  obtain ⟨visited, _, hmem⟩ := List.mem_flatMap.1 hwalk
  rw [unreachableKey?_of_mem_walk hstores hmem] at hkey
  contradiction

end Grammar

end GrammarCheck
