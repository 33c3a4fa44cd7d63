import GrammarCheck.Proofs.Syntax.Relabeling
import GrammarCheck.Verification.Basic

/-!
# Verifying relabeled grammars

A search follows spellings, so it visits the same keys of a relabeled grammar, in the same order. What
verifying reports are the problems of the grammar itself, relabeled.
-/

namespace GrammarCheck

variable (relabeling : Relabeling)

theorem Production.references_relabel (production : Production) :
    (production.relabel relabeling).references = production.references := by
  rw [references, references, occurrences_relabel, List.filterMap_map]
  congr 1
  funext occurrence
  cases occurrence with
  | reference token => exact congrArg some (relabeling.spelling_token token)
  | problem problem => rfl

/-! ### The search -/

namespace Search

def relabel (search : Search) : Search where
  visited := search.visited.map (Grammar.relabelEntry relabeling)
  pending := search.pending.map (Grammar.relabelEntry relabeling)
  unreached := search.unreached.relabel relabeling

theorem discover_relabel (search : Search) (key : String) :
    (search.relabel relabeling).discover key = (search.discover key).relabel relabeling := by
  have hunreached : (search.relabel relabeling).unreached.find? key =
      (search.unreached.find? key).map (Production.relabel relabeling) :=
    search.unreached.find?_relabel relabeling key
  rw [discover, discover, hunreached]
  cases search.unreached.find? key with
  | none => rfl
  | some production =>
    simp only [Option.map_some, relabel, Grammar.relabel_erase, List.map_cons]
    rfl

theorem foldl_discover_relabel (keys : List String) (search : Search) :
    keys.foldl discover (search.relabel relabeling) = (keys.foldl discover search).relabel relabeling := by
  induction keys generalizing search with
  | nil => rfl
  | cons key rest ih => rw [List.foldl_cons, List.foldl_cons, discover_relabel, ih]

theorem step?_relabel (search : Search) :
    (search.relabel relabeling).step? = search.step?.map (relabel relabeling) := by
  obtain ⟨visited, pending, unreached⟩ := search
  cases pending with
  | nil => rfl
  | cons entry rest =>
    have hvisit : relabel relabeling ⟨visited ++ [entry], rest, unreached⟩ =
        ⟨visited.map (Grammar.relabelEntry relabeling) ++ [Grammar.relabelEntry relabeling entry],
          rest.map (Grammar.relabelEntry relabeling), unreached.relabel relabeling⟩ := by
      rw [relabel, List.map_append, List.map_singleton]
    have hfollow := foldl_discover_relabel relabeling entry.2.references ⟨visited ++ [entry], rest, unreached⟩
    rw [hvisit] at hfollow
    exact congrArg some ((congrArg (List.foldl discover _) (entry.2.references_relabel relabeling)).trans hfollow)

theorem finish_relabel (search : Search) :
    (search.relabel relabeling).finish = search.finish.relabel relabeling := by
  fun_induction finish search with
  | case1 search next hstep ih =>
    have hnext : (search.relabel relabeling).step? = some (next.relabel relabeling) := by
      rw [step?_relabel, hstep, Option.map_some]
    rw [finish]
    split
    · next later hlater =>
      obtain rfl := Option.some.inj (hnext.symm.trans hlater)
      exact ih
    · next hnone =>
      rw [hnext] at hnone
      contradiction
  | case2 search hstep =>
    have hover : (search.relabel relabeling).step? = none := by rw [step?_relabel, hstep, Option.map_none]
    rw [finish]
    split
    · next later hlater =>
      rw [hover] at hlater
      contradiction
    · rfl

end Search

theorem Grammar.search_relabel (grammar : Grammar) (start : String) :
    (grammar.relabel relabeling).search start = (grammar.search start).relabel relabeling := by
  have hstart : Search.start (grammar.relabel relabeling) start = (Search.start grammar start).relabel relabeling :=
    Search.discover_relabel relabeling ⟨[], [], grammar⟩ start
  rw [search, search, hstart, Search.finish_relabel]

/-! ### What is reported -/

namespace Production

variable (production : Production) (grammar : Grammar)

theorem findingsAt_relabel (occurrence : Expression.Occurrence) :
    (production.relabel relabeling).findingsAt (grammar.relabel relabeling) (occurrence.relabel relabeling) =
      (production.findingsAt grammar occurrence).map relabeling.diagnostic := by
  cases occurrence with
  | problem problem => rfl
  | reference token =>
    rw [Expression.Occurrence.relabel, findingsAt, findingsAt, relabeling.spelling_token, Grammar.contains_relabel,
      name_relabel, relabeling.kind_token, relabeling.kind_token, List.map_append, apply_ite (List.map _),
      apply_ite (List.map _), List.map_singleton, List.map_singleton, relabeling.missingProduction_eq,
      relabeling.nonLexicalReference_eq]
    rfl

theorem findings_relabel :
    (production.relabel relabeling).findings (grammar.relabel relabeling) =
      (production.findings grammar).map relabeling.diagnostic := by
  rw [findings, findings, occurrences_relabel, List.flatMap_map, List.map_flatMap]
  congr 1
  funext occurrence
  exact findingsAt_relabel relabeling production grammar occurrence

end Production

/-- Verifying a relabeled grammar reports what verifying the grammar does, relabeled. -/
theorem Grammar.verify_relabel (grammar : Grammar) (start : String) :
    (grammar.relabel relabeling).verify start = (grammar.verify start).map relabeling.diagnostic := by
  rw [verify, verify, contains_relabel]
  split
  · rw [search_relabel]
    change ((grammar.search start).visited.map (relabelEntry relabeling)).flatMap _ ++
      ((grammar.search start).unreached.entries.map (relabelEntry relabeling)).map _ = _
    rw [List.flatMap_map, List.map_map, List.map_append, List.map_flatMap, List.map_map]
    congr 2
    · funext entry
      exact entry.2.findings_relabel relabeling grammar
    · funext entry
      exact (relabeling.unreachable_eq entry.1 entry.2.name).symm
  · exact congrArg (fun problem => [problem]) (relabeling.noStartProduction_eq start).symm

end GrammarCheck
