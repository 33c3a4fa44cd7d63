import GrammarCheck.Reading.Fragment

/-!
# What is seen of an expression while it is read

A view of expressions lists things that are in them, part by part. Of an expression that is being read
it shows what has been read so far, and completing the expression adds nothing to that but what the view
shows of a missing term.
-/

namespace GrammarCheck

/-- A list for each expression, which for alternatives and sequences is that of their parts in a row. -/
structure Expression.View (α : Type) where
  of : Expression → List α
  of_alternative : ∀ branches, of (.alternative branches) = branches.flatMap of
  of_sequence : ∀ terms, of (.sequence terms) = terms.flatMap of

namespace Fragment

variable {α : Type} (view : Expression.View α) (fragment : Fragment) (found : Token)

/-- What the view shows of the fragment in the order of the source. -/
def viewed : List α := fragment.branches.reverse.flatMap view.of ++ fragment.terms.reverse.flatMap view.of

/-- What the view shows of the term that is missing when a token ends the fragment, if one is. -/
def viewedMissing : List α :=
  if fragment.terms.isEmpty then view.of (.malformed found (.emptySequenceBefore found)) else []

theorem viewed_push (term : Expression) : (fragment.push term).viewed view = fragment.viewed view ++ view.of term := by
  rw [viewed, viewed, push, List.reverse_cons, List.flatMap_append, List.flatMap_singleton, List.append_assoc]

theorem viewed_sequence :
    view.of (fragment.sequence found) =
      fragment.terms.reverse.flatMap view.of ++ fragment.viewedMissing view found := by
  obtain ⟨branches, terms⟩ := fragment
  match terms with
  | [] => rfl
  | [term] => simp [sequence, viewedMissing]
  | first :: second :: rest => simp [sequence, viewedMissing, view.of_sequence]

theorem viewed_expression :
    view.of (fragment.expression found) = fragment.viewed view ++ fragment.viewedMissing view found := by
  have hsequence := fragment.viewed_sequence view found
  obtain ⟨branches, terms⟩ := fragment
  cases branches with
  | nil => simpa [expression, viewed] using hsequence
  | cons branch rest => simp [expression, viewed, hsequence, view.of_alternative]

theorem viewed_nextBranch :
    (fragment.nextBranch found).viewed view = fragment.viewed view ++ fragment.viewedMissing view found := by
  have hnext : (fragment.nextBranch found).viewed view =
      (fragment.branches.reverse ++ [fragment.sequence found]).flatMap view.of ++ [] := by
    rw [viewed, nextBranch, List.reverse_cons]
    rfl
  rw [hnext, List.append_nil, List.flatMap_append, List.flatMap_singleton, viewed_sequence, ← List.append_assoc, viewed]

end Fragment

end GrammarCheck
