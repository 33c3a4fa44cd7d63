import GrammarCheck.Grammar.Lemmas
import GrammarCheck.Verification.Search
import Mathlib.Data.List.Induction
import Mathlib.Data.List.Nodup
import Mathlib.Logic.Relation

/-!
# What a search discovers

The keys that a production names span a relation on the keys of a grammar. A search visits the keys
that the relation reaches from the start, and the order of the visits is fixed by the order in which
the visited productions name other keys: the next key is always the last one named of those waiting.

The state of a search is described by the list of keys named so far, which only grows. Everything
else in it, the keys that wait and the productions not discovered, is a function of that list.
-/

namespace GrammarCheck

/-- The expression holds a name with the given token at some depth. -/
inductive Expression.Names : Expression → Token → Prop
  | name (token : Token) : Names (.name token) token
  | alternative {branches : List Expression} {branch : Expression} {token : Token} :
      branch ∈ branches → Names branch token → Names (.alternative branches) token
  | sequence {terms : List Expression} {term : Expression} {token : Token} :
      term ∈ terms → Names term token → Names (.sequence terms) token
  | enclosed {bracket : Bracket} {opening : Token} {body : Expression} {token : Token} :
      Names body token → Names (.enclosed bracket opening body) token

namespace Grammar

/-- The production under one key names the other, which is a key too. -/
def Refers (grammar : Grammar) (key referred : String) : Prop :=
  ∃ production expression token, grammar.find? key = some production ∧
    production.expression = some expression ∧ expression.Names token ∧ token.spelling = referred ∧
    grammar.contains referred = true

/-- Following names from one key leads to the other. -/
def Reaches (grammar : Grammar) : String → String → Prop := Relation.ReflTransGen grammar.Refers

/-- What the production under a key names, from left to right. -/
def namedBy (grammar : Grammar) (key : String) : List String :=
  (grammar.find? key).elim [] Production.references

/-- The keys among names, each where it comes first. -/
def keysAmong (grammar : Grammar) (names : List String) : List String :=
  (names.filter grammar.contains).eraseDups

/-- The keys that wait when those of a list have been visited, the latest discovery last. -/
def waiting (grammar : Grammar) (start : String) (visited : List String) : List String :=
  (grammar.keysAmong (start :: visited.flatMap grammar.namedBy)).filter (· ∉ visited)

/-- Every visit is to the key discovered last of those that wait for one. -/
def VisitsLatest (grammar : Grammar) (start : String) (keys : List String) : Prop :=
  ∀ earlier key later, keys = earlier ++ key :: later →
    (grammar.waiting start earlier).getLast? = some key

end Grammar

/-! ### Names at any depth -/

namespace Expression

mutual

theorem reference_mem_occurrences_iff : ∀ {expression : Expression} {token : Token},
    .reference token ∈ expression.occurrences ↔ expression.Names token
  | .alternative branches, token => by
    rw [occurrences, reference_mem_occurrencesAll_iff]
    constructor
    · rintro ⟨branch, hmem, hnames⟩
      exact .alternative hmem hnames
    · rintro (_ | ⟨hmem, hnames⟩)
      exact ⟨_, hmem, hnames⟩
  | .sequence terms, token => by
    rw [occurrences, reference_mem_occurrencesAll_iff]
    constructor
    · rintro ⟨term, hmem, hnames⟩
      exact .sequence hmem hnames
    · rintro (_ | _ | ⟨hmem, hnames⟩)
      exact ⟨_, hmem, hnames⟩
  | .name named, token => by
    rw [occurrences, List.mem_singleton, Occurrence.reference.injEq]
    constructor
    · rintro rfl
      exact .name token
    · rintro ⟨⟩
      rfl
  | .literal _, token => by
    simp only [occurrences, List.not_mem_nil, false_iff]
    rintro ⟨⟩
  | .enclosed bracket opening body, token => by
    rw [occurrences, reference_mem_occurrences_iff]
    constructor
    · exact .enclosed
    · rintro (_ | _ | _ | hnames)
      exact hnames
  | .malformed found problem, token => by
    simp only [occurrences, List.mem_singleton, reduceCtorEq, false_iff]
    rintro ⟨⟩

theorem reference_mem_occurrencesAll_iff : ∀ {expressions : List Expression} {token : Token},
    .reference token ∈ occurrencesAll expressions ↔
      ∃ expression ∈ expressions, expression.Names token
  | [], token => by simp [occurrencesAll]
  | expression :: rest, token => by
    rw [occurrencesAll, List.mem_append, reference_mem_occurrences_iff, reference_mem_occurrencesAll_iff]
    simp

end

end Expression

theorem Production.mem_references_iff {production : Production} {key : String} :
    key ∈ production.references ↔
      ∃ expression token, production.expression = some expression ∧ expression.Names token ∧
        token.spelling = key := by
  unfold references occurrences
  rw [List.mem_filterMap]
  constructor
  · rintro ⟨occurrence, hmem, hspelling⟩
    cases hexpression : production.expression with
    | none => simp [hexpression] at hmem
    | some expression =>
      rw [hexpression] at hmem
      cases occurrence with
      | problem problem => simp at hspelling
      | reference token =>
        exact ⟨expression, token, rfl, Expression.reference_mem_occurrences_iff.mp hmem, by simpa using hspelling⟩
  · rintro ⟨expression, token, hexpression, hnames, hspelling⟩
    rw [hexpression]
    exact ⟨.reference token, Expression.reference_mem_occurrences_iff.mpr hnames, by simp [hspelling]⟩

namespace Grammar

variable {grammar : Grammar}

theorem refers_iff {key referred : String} :
    grammar.Refers key referred ↔ referred ∈ grammar.namedBy key ∧ grammar.contains referred = true := by
  unfold Refers namedBy
  constructor
  · rintro ⟨production, expression, token, hfind, hexpression, hnames, hspelling, hcontains⟩
    refine ⟨?_, hcontains⟩
    rw [hfind]
    exact Production.mem_references_iff.mpr ⟨expression, token, hexpression, hnames, hspelling⟩
  · rintro ⟨hmem, hcontains⟩
    cases hfind : grammar.find? key with
    | none => simp [hfind] at hmem
    | some production =>
      rw [hfind] at hmem
      obtain ⟨expression, token, hexpression, hnames, hspelling⟩ := Production.mem_references_iff.mp hmem
      exact ⟨production, expression, token, rfl, hexpression, hnames, hspelling, hcontains⟩

/-! ### Keys among names -/

theorem mem_keysAmong {names : List String} {key : String} :
    key ∈ grammar.keysAmong names ↔ key ∈ names ∧ grammar.contains key = true := by
  rw [keysAmong, List.mem_eraseDups, List.mem_filter]

/-- One more name adds a key if it is one that was not named before. -/
theorem keysAmong_concat (names : List String) (key : String) :
    grammar.keysAmong (names ++ [key]) =
      grammar.keysAmong names ++ if grammar.contains key = true ∧ key ∉ names then [key] else [] := by
  unfold keysAmong
  rw [List.filter_append, List.eraseDups_append]
  congr 1
  by_cases hcontains : grammar.contains key = true
  · by_cases hmem : key ∈ names
    · simp [hcontains, hmem, List.removeAll]
    · simp [hcontains, hmem, List.removeAll, List.eraseDups_cons]
  · simp [hcontains]

theorem nodup_keysAmong (names : List String) : (grammar.keysAmong names).Nodup := by
  induction names using List.reverseRecOn with
  | nil => simp [keysAmong]
  | append_singleton names key ih =>
    rw [keysAmong_concat]
    split
    · next hnew =>
      refine List.nodup_append.mpr ⟨ih, List.nodup_singleton key, ?_⟩
      rintro other hother _ hkey rfl
      rw [List.mem_singleton] at hkey
      exact hnew.2 (hkey ▸ (mem_keysAmong.mp hother).1)
    · simpa using ih

end Grammar

/-! ### The state of a search -/

namespace Search

def visitedKeys (search : Search) : List String := search.visited.map (·.1)

def pendingKeys (search : Search) : List String := search.pending.map (·.1)

/-- The state of a search of a grammar in which the given names have been met. -/
structure Follows (grammar : Grammar) (names : List String) (search : Search) : Prop where
  visited_subset : search.visitedKeys ⊆ names
  /-- The keys named so far and not visited wait, the latest on top. -/
  pending_eq : search.pendingKeys = ((grammar.keysAmong names).filter (· ∉ search.visitedKeys)).reverse
  /-- Discovered productions are those of the grammar. -/
  find?_eq : ∀ entry ∈ search.visited ++ search.pending, grammar.find? entry.1 = some entry.2
  /-- The productions not named are not discovered. -/
  unreached_eq : ∀ key, search.unreached.find? key = if key ∈ names then none else grammar.find? key

variable {grammar : Grammar} {names : List String} {search : Search}

theorem Follows.discover (hfollows : search.Follows grammar names) (key : String) :
    (search.discover key).Follows grammar (names ++ [key]) := by
  have hunreached := hfollows.unreached_eq key
  unfold Search.discover
  split
  · next production hfind =>
    -- a production that is still to be discovered: its key is new and goes on top
    have hnew : key ∉ names := fun hmem => by simp [hfind, hmem] at hunreached
    have hgrammar : grammar.find? key = some production := by simpa [hfind, hnew] using hunreached.symm
    have hcontains : grammar.contains key = true := by simp [Grammar.contains, hgrammar]
    have hunvisited : key ∉ search.visitedKeys := fun hmem => hnew (hfollows.visited_subset hmem)
    constructor
    · exact List.Subset.trans hfollows.visited_subset (List.subset_append_left _ _)
    · change key :: search.pendingKeys =
        ((grammar.keysAmong (names ++ [key])).filter (· ∉ search.visitedKeys)).reverse
      rw [Grammar.keysAmong_concat, if_pos ⟨hcontains, hnew⟩, List.filter_append, List.reverse_append,
        ← hfollows.pending_eq, List.filter_cons_of_pos (by simpa using hunvisited)]
      rfl
    · intro entry hmem
      rw [List.mem_append, List.mem_cons] at hmem
      rcases hmem with hmem | rfl | hmem
      · exact hfollows.find?_eq entry (List.mem_append_left _ hmem)
      · exact hgrammar
      · exact hfollows.find?_eq entry (List.mem_append_right _ hmem)
    · intro wanted
      rw [Grammar.find?_erase, hfollows.unreached_eq]
      by_cases hwanted : wanted = key <;> simp [hwanted]
  · next hfind =>
    -- the key was named before, or it is no key of the grammar
    have hold : ¬(grammar.contains key = true ∧ key ∉ names) := by
      rintro ⟨hcontains, hnew⟩
      rw [hfind, if_neg hnew] at hunreached
      simp [Grammar.contains, ← hunreached] at hcontains
    constructor
    · exact List.Subset.trans hfollows.visited_subset (List.subset_append_left _ _)
    · rw [Grammar.keysAmong_concat, if_neg hold, List.append_nil]
      exact hfollows.pending_eq
    · exact hfollows.find?_eq
    · intro wanted
      rw [hfollows.unreached_eq]
      by_cases hwanted : wanted = key
      · subst hwanted
        rw [hfollows.unreached_eq] at hfind
        simp [hfind]
      · simp [hwanted]

theorem Follows.foldl_discover (hfollows : search.Follows grammar names) (keys : List String) :
    (keys.foldl Search.discover search).Follows grammar (names ++ keys) := by
  induction keys generalizing search names with
  | nil => simpa using hfollows
  | cons key rest ih =>
    have hrest := ih (hfollows.discover key)
    rwa [List.append_assoc, List.singleton_append] at hrest

/-- Taking the next production off those that wait, before its names are followed. -/
theorem Follows.visit {entry : String × Production} {rest : List (String × Production)}
    (hfollows : search.Follows grammar names) (hpending : search.pending = entry :: rest) :
    Follows grammar names { search with visited := search.visited ++ [entry], pending := rest } := by
  have hkeys := hfollows.pending_eq
  simp only [pendingKeys, hpending, List.map_cons] at hkeys
  constructor
  · have hmem : entry.1 ∈ grammar.keysAmong names := by
      have hwaits : entry.1 ∈ ((grammar.keysAmong names).filter (· ∉ search.visitedKeys)).reverse :=
        hkeys ▸ List.mem_cons_self
      exact (List.mem_filter.mp (List.mem_reverse.mp hwaits)).1
    intro key hkey
    rw [visitedKeys, List.map_append, List.mem_append] at hkey
    rcases hkey with hkey | hkey
    · exact hfollows.visited_subset hkey
    · rw [List.map_singleton, List.mem_singleton] at hkey
      exact hkey ▸ (Grammar.mem_keysAmong.mp hmem).1
  · -- the keys that wait are all different, so leaving one out leaves the others
    have hnodup : (entry.1 :: rest.map (·.1)).Nodup :=
      hkeys ▸ List.nodup_reverse.mpr ((Grammar.nodup_keysAmong names).filter _)
    have hfilter : (grammar.keysAmong names).filter (· ∉ search.visitedKeys ++ [entry.1]) =
        ((grammar.keysAmong names).filter (· ∉ search.visitedKeys)).filter (· ≠ entry.1) := by
      rw [List.filter_filter]
      congr 1
      funext key
      simp [and_comm]
    have hrest : (rest.map (·.1)).filter (· ≠ entry.1) = rest.map (·.1) :=
      List.filter_eq_self.mpr fun key hkey => by
        simpa using fun heq : key = entry.1 => (List.nodup_cons.mp hnodup).1 (heq ▸ hkey)
    have hvisited : visitedKeys { search with visited := search.visited ++ [entry], pending := rest } =
        search.visitedKeys ++ [entry.1] := by simp [visitedKeys]
    rw [hvisited, hfilter, ← List.filter_reverse, ← hkeys, List.filter_cons_of_neg (by simp), hrest]
    rfl
  · intro other hmem
    refine hfollows.find?_eq other ?_
    rw [hpending]
    simpa [or_assoc] using hmem
  · exact hfollows.unreached_eq

/-- The names met in a search from a start when the productions in it have been visited. -/
def namesMet (search : Search) (grammar : Grammar) (start : String) : List String :=
  start :: search.visitedKeys.flatMap grammar.namedBy

/-- The invariant of a search between two visits. -/
structure Valid (grammar : Grammar) (start : String) (search : Search) : Prop where
  follows : search.Follows grammar (search.namesMet grammar start)
  visitsLatest : grammar.VisitsLatest start search.visitedKeys

variable {start : String}

theorem valid_start (grammar : Grammar) (start : String) : (Search.start grammar start).Valid grammar start := by
  have hinitial : Follows grammar [] { visited := [], pending := [], unreached := grammar } := by
    constructor <;> simp [visitedKeys, pendingKeys, Grammar.keysAmong]
  have hvisited : (Search.start grammar start).visited = [] := by
    unfold Search.start discover
    split <;> rfl
  constructor
  · have hmet : (Search.start grammar start).namesMet grammar start = [start] := by
      simp [namesMet, visitedKeys, hvisited]
    rw [hmet]
    exact hinitial.discover start
  · intro earlier key later hsplit
    simp [visitedKeys, hvisited] at hsplit

theorem visited_foldl_discover (keys : List String) (search : Search) :
    (keys.foldl discover search).visited = search.visited := by
  induction keys generalizing search with
  | nil => rfl
  | cons key rest ih =>
    rw [List.foldl_cons, ih]
    unfold discover
    split <;> rfl

/-- The production that is visited next is the one discovered last of those that wait. -/
theorem Valid.getLast?_waiting {entry : String × Production} {rest : List (String × Production)}
    (hvalid : search.Valid grammar start) (hpending : search.pending = entry :: rest) :
    (grammar.waiting start search.visitedKeys).getLast? = some entry.1 := by
  have hkeys := hvalid.follows.pending_eq
  simp only [pendingKeys, hpending, List.map_cons] at hkeys
  unfold Grammar.waiting
  rw [← List.head?_reverse]
  change (((grammar.keysAmong (search.namesMet grammar start)).filter (· ∉ search.visitedKeys)).reverse).head? = _
  rw [← hkeys, List.head?_cons]

theorem Valid.step? {next : Search} (hvalid : search.Valid grammar start) (hstep : search.step? = some next) :
    next.Valid grammar start := by
  unfold Search.step? at hstep
  split at hstep
  · simp at hstep
  · next entry rest hpending =>
    obtain rfl := Option.some.inj hstep
    have hvisited : visitedKeys (entry.2.references.foldl discover
        { search with visited := search.visited ++ [entry], pending := rest }) =
          search.visitedKeys ++ [entry.1] := by
      rw [visitedKeys, visited_foldl_discover, List.map_append]
      rfl
    constructor
    · have hfind : grammar.find? entry.1 = some entry.2 :=
        hvalid.follows.find?_eq entry (by simp [hpending])
      have hnames : namesMet (entry.2.references.foldl discover
          { search with visited := search.visited ++ [entry], pending := rest }) grammar start =
            search.namesMet grammar start ++ entry.2.references := by
        simp [namesMet, hvisited, Grammar.namedBy, hfind]
      rw [hnames]
      exact (hvalid.follows.visit hpending).foldl_discover entry.2.references
    · intro earlier key later hsplit
      rw [hvisited] at hsplit
      rcases List.eq_nil_or_concat' later with rfl | ⟨later, last, rfl⟩
      · obtain ⟨rfl, hlast⟩ := List.append_inj' hsplit rfl
        obtain rfl : entry.1 = key := by simpa using hlast
        exact hvalid.getLast?_waiting hpending
      · rw [← List.cons_append, ← List.append_assoc] at hsplit
        exact hvalid.visitsLatest earlier key later (List.append_inj' hsplit rfl).1

theorem Valid.finish (hvalid : search.Valid grammar start) : search.finish.Valid grammar start := by
  fun_induction Search.finish search with
  | case1 search next hstep ih => exact ih (hvalid.step? hstep)
  | case2 search hstep => exact hvalid

theorem pending_finish (search : Search) : search.finish.pending = [] := by
  fun_induction Search.finish search with
  | case1 search next hstep ih => exact ih
  | case2 search hstep =>
    unfold Search.step? at hstep
    split at hstep
    · assumption
    · simp at hstep

end Search

end GrammarCheck
