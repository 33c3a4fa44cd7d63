import GrammarCheck.Grammar.Basic
/-!
# Searching a grammar

A search follows the names in productions from one production to the next. It visits every production
that can be reached, each once, and always the one discovered last of those that it has not visited.
-/

namespace GrammarCheck

/-- The keys that a production refers to, from left to right. -/
def Production.references (production : Production) : List String :=
  production.occurrences.filterMap fun
    | .reference token => some token.spelling
    | .problem _ => none

/-- The state of a search. Every production of the grammar is in exactly one of the three places. -/
structure Search where
  /-- The productions whose references have been followed, in that order. -/
  visited : List (String × Production)
  pending : List (String × Production)
  unreached : Grammar
deriving DecidableEq

namespace Search

/-- Discovers a key: if its production is still to be discovered, it becomes the next to visit. -/
def discover (search : Search) (key : String) : Search :=
  match search.unreached.find? key with
  | some production =>
    { search with pending := (key, production) :: search.pending, unreached := search.unreached.erase key }
  | none => search

/-- A search from the production under a key. -/
def start (grammar : Grammar) (key : String) : Search :=
  discover { visited := [], pending := [], unreached := grammar } key

/-- Visits the next production. There is none if the search is over. -/
def step? (search : Search) : Option Search :=
  match search.pending with
  | [] => none
  | entry :: rest =>
    some (entry.2.references.foldl discover { search with visited := search.visited ++ [entry], pending := rest })

/-- The productions that the search has not visited. -/
def remaining (search : Search) : Nat := search.unreached.size + search.pending.length

theorem remaining_discover_le (search : Search) (key : String) :
    (search.discover key).remaining ≤ search.remaining := by
  unfold discover
  split
  · next production hfind =>
    have hsize := Grammar.size_erase_lt hfind
    simp only [remaining, List.length_cons]
    omega
  · exact Nat.le_refl _

theorem remaining_foldl_discover_le (keys : List String) (search : Search) :
    (keys.foldl discover search).remaining ≤ search.remaining := by
  induction keys generalizing search with
  | nil => exact Nat.le_refl _
  | cons key rest ih => exact Nat.le_trans (ih _) (remaining_discover_le search key)

theorem remaining_step?_lt {search next : Search} (hstep : search.step? = some next) :
    next.remaining < search.remaining := by
  unfold step? at hstep
  split at hstep
  · simp at hstep
  · next entry rest hpending =>
    obtain rfl := Option.some.inj hstep
    refine Nat.lt_of_le_of_lt (remaining_foldl_discover_le _ _) ?_
    simp [remaining, hpending]

def finish (search : Search) : Search :=
  match _hstep : search.step? with
  | some next => next.finish
  | none => search
termination_by search.remaining
decreasing_by exact remaining_step?_lt _hstep

end Search

/-- The search of a whole grammar from the production under a key. -/
def Grammar.search (grammar : Grammar) (start : String) : Search := (Search.start grammar start).finish

end GrammarCheck
