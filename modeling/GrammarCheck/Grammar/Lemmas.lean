import GrammarCheck.Grammar.Basic
/-!
# What a grammar holds

Each operation on grammars by what it does to the production under a key, and that a grammar is
determined by what it holds.
-/

namespace GrammarCheck.Grammar

@[simp] theorem find?_empty (key : String) : empty.find? key = none := rfl

theorem find?_insertEntry (key : String) (production : Production) (entries : List (String × Production))
    (wanted : String) :
    ((insertEntry key production entries).find? (·.1 == wanted)).map (·.2) =
      if wanted = key then some production else (entries.find? (·.1 == wanted)).map (·.2) := by
  induction entries with
  | nil => by_cases hwanted : wanted = key <;> simp [insertEntry, hwanted, Ne.symm]
  | cons entry rest ih =>
    simp only [insertEntry]
    split
    · by_cases hwanted : wanted = key
      · simp [hwanted]
      · simp [hwanted, Ne.symm hwanted, List.find?_cons]
    · split
      · next hkey =>
        by_cases hwanted : wanted = key
        · simp [hwanted]
        · simp [hwanted, Ne.symm hwanted, ← hkey]
      · next hkey =>
        by_cases hentry : entry.1 = wanted
        · simp [hentry, hentry ▸ Ne.symm hkey]
        · simp [hentry, ih]

@[simp] theorem find?_insert (grammar : Grammar) (key : String) (production : Production) (wanted : String) :
    (grammar.insert key production).find? wanted =
      if wanted = key then some production else grammar.find? wanted :=
  find?_insertEntry key production grammar.entries wanted

@[simp] theorem find?_erase (grammar : Grammar) (key wanted : String) :
    (grammar.erase key).find? wanted = if wanted = key then none else grammar.find? wanted := by
  unfold find? erase
  rw [List.find?_filter]
  split
  · next hwanted => simp [hwanted]
  · next hwanted =>
    congr 2
    funext entry
    by_cases hentry : entry.1 = wanted <;> simp [hentry, hwanted]

/-- What a grammar holds under a key is its entry with that key. -/
theorem find?_eq_some_iff {grammar : Grammar} {key : String} {production : Production} :
    grammar.find? key = some production ↔ (key, production) ∈ grammar.entries := by
  obtain ⟨entries, hordered⟩ := grammar
  unfold find?
  induction entries with
  | nil => simp
  | cons entry rest ih =>
    rw [List.pairwise_cons] at hordered
    simp only at ih ⊢
    by_cases hentry : entry.1 = key
    · have hrest : ∀ production, (key, production) ∉ rest := by
        intro production hmem
        have hlt := hordered.1 (key, production) hmem
        exact String.lt_irrefl key (hentry ▸ hlt)
      subst hentry
      simp [hrest, Prod.ext_iff, eq_comm]
    · have hne : (key, production) ≠ entry := fun heq => hentry (heq ▸ rfl)
      simp [hentry, hne, ih hordered.2]

/-- A grammar is determined by what it holds under each key. -/
theorem ext_find? {left right : Grammar} (hfind : ∀ key, left.find? key = right.find? key) : left = right := by
  have hnodup (grammar : Grammar) : grammar.entries.Nodup := by
    refine grammar.ordered.imp ?_
    rintro earlier _ hlt rfl
    exact String.lt_irrefl earlier.1 hlt
  have hperm : left.entries.Perm right.entries := by
    refine (List.perm_ext_iff_of_nodup (hnodup left) (hnodup right)).mpr fun entry => ?_
    have hentry : left.find? entry.1 = some entry.2 ↔ right.find? entry.1 = some entry.2 := by rw [hfind]
    exact (find?_eq_some_iff.symm.trans hentry).trans find?_eq_some_iff
  have hentries := hperm.eq_of_pairwise
    (fun _ _ _ _ hlt hgt => absurd hgt (String.lt_asymm hlt)) left.ordered right.ordered
  cases left
  cases right
  simpa using hentries

end GrammarCheck.Grammar
