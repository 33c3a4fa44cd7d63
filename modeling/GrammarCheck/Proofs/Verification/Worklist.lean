import GrammarCheck.Proofs.Verification.Exactness
import Mathlib.Data.Finset.Card

/-!
# Verifying with a worklist

A grammar can be verified with a set of the keys reached and a worklist of productions. Names are looked up in
the whole grammar while an expression is walked, at any depth of it, and put productions on the worklist right
away. Nothing here takes for granted that the worklist ever becomes empty: the loop is given how many productions
it may take off, and it has no result if more of them are left. A search does the same one name after the other.
-/

namespace GrammarCheck

/-- How far a verification has come. Productions are known by the keys they are stored under. -/
structure Verification where
  reached : Finset String
  /-- The worklist, the latest production first. -/
  pending : List (String × Production)
  /-- The productions taken off the worklist, in that order. -/
  popped : List (String × Production)
  problems : List Diagnostic
deriving DecidableEq

namespace Verification

/-! ### The walk and the loop -/

def empty : Verification := { reached := ∅, pending := [], popped := [], problems := [] }

/-- Puts a production on the worklist, unless it has been there before. -/
def push (key : String) (production : Production) (state : Verification) : Verification :=
  if key ∈ state.reached then state
  else { state with reached := insert key state.reached, pending := (key, production) :: state.pending }

def report (problem : Diagnostic) (state : Verification) : Verification :=
  { state with problems := state.problems ++ [problem] }

section Walk

variable (grammar : Grammar) (lexical : Bool)

/-- Meets a name. In a lexical production it has to be a non-terminal. -/
def refer (token : Token) (state : Verification) : Verification :=
  let state := match grammar.find? token.spelling with
    | some production => state.push token.spelling production
    | none => state.report (.missingProduction token.spelling token.position)
  if lexical && token.kind == .terminal then state.report (.nonLexicalReference token.spelling token.position)
  else state

mutual

def expression : Expression → Verification → Verification
  | .alternative branches, state => expressions branches state
  | .sequence terms, state => expressions terms state
  | .name token, state => state.refer grammar lexical token
  | .literal _, state => state
  | .enclosed _ _ body, state => expression body state
  | .malformed _ problem, state => state.report problem

def expressions : List Expression → Verification → Verification
  | [], state => state
  | first :: rest, state => expressions rest (expression first state)

end

/-- Meets a name or a problem on the walk through an expression. -/
def visit (state : Verification) : Expression.Occurrence → Verification
  | .reference token => state.refer grammar lexical token
  | .problem problem => state.report problem

end Walk

def production (grammar : Grammar) (production : Production) (state : Verification) : Verification :=
  match production.expression with
  | some expression => state.expression grammar (production.name.kind == .nonTerminal) expression
  | none => state

/-- The latest production on the worklist, and the state without it there. -/
def pop? (state : Verification) : Option ((String × Production) × Verification) :=
  match state.pending with
  | [] => none
  | entry :: rest => some (entry, { state with pending := rest, popped := state.popped ++ [entry] })

/-- One round of the loop takes a production off the worklist and walks through it. -/
def round? (grammar : Grammar) (state : Verification) : Option Verification :=
  state.pop?.map fun (entry, state) => state.production grammar entry.2

/-- The state when the worklist is empty, if that takes no more rounds than given. -/
def finish? (grammar : Grammar) : Nat → Verification → Option Verification
  | 0, state => if state.pending = [] then some state else none
  | rounds + 1, state =>
    match state.round? grammar with
    | some later => later.finish? grammar rounds
    | none => some state

/-- Reports the productions that have not been reached, if there are any. -/
def reportUnreachable (grammar : Grammar) (state : Verification) : Verification :=
  if state.reached.card < grammar.size then
    { state with problems := state.problems ++
        (grammar.entries.filter (·.1 ∉ state.reached)).map fun entry => .unreachable entry.1 entry.2.name.line }
  else state

/-- The problems of a grammar, found in so many rounds at most. -/
def verify? (grammar : Grammar) (start : String) (rounds : Nat) : Option (List Diagnostic) :=
  match grammar.find? start with
  | some root => do
    let state ← (empty.push start root).finish? grammar rounds
    return (state.reportUnreachable grammar).problems
  | none => some (empty.report (.noStartProduction start)).problems

/-! ### Walks meet one name or problem after the other -/

section Walk

variable (grammar : Grammar) (lexical : Bool)

mutual

theorem expression_eq_foldl : ∀ (expression : Expression) (state : Verification),
    state.expression grammar lexical expression = expression.occurrences.foldl (visit grammar lexical) state
  | .alternative branches, state => by
    rw [Verification.expression, Expression.occurrences, expressions_eq_foldl branches]
  | .sequence terms, state => by
    rw [Verification.expression, Expression.occurrences, expressions_eq_foldl terms]
  | .name token, state => rfl
  | .literal _, state => rfl
  | .enclosed _ _ body, state => by
    rw [Verification.expression, Expression.occurrences, expression_eq_foldl body]
  | .malformed _ problem, state => rfl

theorem expressions_eq_foldl : ∀ (expressions : List Expression) (state : Verification),
    state.expressions grammar lexical expressions =
      (Expression.occurrencesAll expressions).foldl (visit grammar lexical) state
  | [], state => rfl
  | first :: rest, state => by
    rw [Verification.expressions, Expression.occurrencesAll, List.foldl_append, expression_eq_foldl first,
      expressions_eq_foldl rest]

end

theorem production_eq_foldl (production : Production) (state : Verification) :
    state.production grammar production =
      production.occurrences.foldl (visit grammar (production.name.kind == .nonTerminal)) state := by
  unfold Verification.production Production.occurrences
  cases production.expression with
  | none => rfl
  | some expression => exact expression_eq_foldl grammar _ expression state

end Walk

end Verification

/-! ### A search does the same -/

/-- The key that is named, if it is a name. -/
def Expression.Occurrence.key? : Expression.Occurrence → Option String
  | .reference token => some token.spelling
  | .problem _ => none

theorem Production.references_eq (production : Production) :
    production.references = production.occurrences.filterMap Expression.Occurrence.key? :=
  rfl

/-- The search and the verification have come equally far. -/
structure Search.Mirrors (grammar : Grammar) (search : Search) (state : Verification) : Prop where
  visited_eq : search.visited = state.popped
  pending_eq : search.pending = state.pending
  reached_subset : ∀ key ∈ state.reached, grammar.contains key = true
  unreached_eq : ∀ key, search.unreached.find? key = if key ∈ state.reached then none else grammar.find? key

namespace Verification

theorem problems_push (key : String) (production : Production) (state : Verification) :
    (state.push key production).problems = state.problems := by
  unfold push
  split <;> rfl

/-- A name may put a production on the worklist and may be reported. -/
theorem refer_eq (grammar : Grammar) (lexical : Bool) (token : Token) (state : Verification) :
    state.refer grammar lexical token =
      { (grammar.find? token.spelling).elim state (state.push token.spelling ·) with
        problems := state.problems ++
          ((if grammar.contains token.spelling then [] else [.missingProduction token.spelling token.position]) ++
            if lexical && token.kind == .terminal then [.nonLexicalReference token.spelling token.position] else []) } := by
  unfold refer Grammar.contains
  cases grammar.find? token.spelling with
  | some production =>
    simp only [Option.elim_some, Option.isSome_some, if_true, List.nil_append,
      ← problems_push token.spelling production state]
    by_cases hterminal : (lexical && token.kind == .terminal) = true <;> simp [report, hterminal]
  | none => by_cases hterminal : (lexical && token.kind == .terminal) = true <;> simp [report, hterminal]

end Verification

namespace Search.Mirrors

variable {grammar : Grammar} {search : Search} {state : Verification}

theorem discover (hmirrors : search.Mirrors grammar state) (key : String) :
    (search.discover key).Mirrors grammar ((grammar.find? key).elim state (state.push key ·)) := by
  have hunreached := hmirrors.unreached_eq key
  unfold Search.discover
  by_cases hreached : key ∈ state.reached
  · -- the key has been reached before, so that neither of the two changes
    rw [if_pos hreached] at hunreached
    have hsame (production : Production) : state.push key production = state := if_pos hreached
    rw [hunreached]
    cases grammar.find? key with
    | none => exact hmirrors
    | some production =>
      rw [Option.elim_some, hsame]
      exact hmirrors
  · rw [if_neg hreached] at hunreached
    rw [hunreached]
    cases hfind : grammar.find? key with
    | none => exact hmirrors
    | some production =>
      have hpush : state.push key production =
          { state with reached := insert key state.reached, pending := (key, production) :: state.pending } :=
        if_neg hreached
      rw [Option.elim_some, hpush]
      refine ⟨hmirrors.visited_eq, congrArg ((key, production) :: ·) hmirrors.pending_eq, ?_, ?_⟩
      · intro other hother
        rcases Finset.mem_insert.1 hother with rfl | hother
        · simp [Grammar.contains, hfind]
        · exact hmirrors.reached_subset other hother
      · intro wanted
        simp only [Grammar.find?_erase, hmirrors.unreached_eq, Finset.mem_insert]
        by_cases hwanted : wanted = key <;> simp [hwanted]

theorem with_problems (hmirrors : search.Mirrors grammar state) (problems : List Diagnostic) :
    search.Mirrors grammar { state with problems } :=
  ⟨hmirrors.visited_eq, hmirrors.pending_eq, hmirrors.reached_subset, hmirrors.unreached_eq⟩

/-- Meeting a name is discovering it. What is reported is what there is to find. -/
theorem visit (hmirrors : search.Mirrors grammar state) (production : Production)
    (occurrence : Expression.Occurrence) :
    (occurrence.key?.elim search search.discover).Mirrors grammar
        (state.visit grammar (production.name.kind == .nonTerminal) occurrence) ∧
      (state.visit grammar (production.name.kind == .nonTerminal) occurrence).problems =
        state.problems ++ production.findingsAt grammar occurrence := by
  cases occurrence with
  | problem problem => exact ⟨hmirrors.with_problems _, rfl⟩
  | reference token =>
    rw [Verification.visit, Verification.refer_eq]
    refine ⟨(hmirrors.discover token.spelling).with_problems _, ?_⟩
    simp [Production.findingsAt]

/-- By induction on what the walk meets. -/
theorem foldl_visit (hmirrors : search.Mirrors grammar state) (production : Production)
    (met : List Expression.Occurrence) :
    ((met.filterMap Expression.Occurrence.key?).foldl Search.discover search).Mirrors grammar
        (met.foldl (Verification.visit grammar (production.name.kind == .nonTerminal)) state) ∧
      (met.foldl (Verification.visit grammar (production.name.kind == .nonTerminal)) state).problems =
        state.problems ++ met.flatMap (production.findingsAt grammar) := by
  induction met generalizing search state with
  | nil => exact ⟨hmirrors, (List.append_nil _).symm⟩
  | cons occurrence rest ih =>
    obtain ⟨hvisited, hproblems⟩ := hmirrors.visit production occurrence
    obtain ⟨hrest, hmore⟩ := ih hvisited
    rw [List.foldl_cons, hmore, hproblems, List.flatMap_cons, List.append_assoc]
    refine ⟨?_, rfl⟩
    cases hkey : occurrence.key? with
    | none =>
      rw [List.filterMap_cons_none hkey]
      rwa [hkey] at hrest
    | some key =>
      rw [List.filterMap_cons_some hkey]
      rwa [hkey] at hrest

end Search.Mirrors

end GrammarCheck
