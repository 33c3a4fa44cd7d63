import GrammarCheck.Grammar.Production
/-!
# Grammars

A grammar holds productions under keys. Keys are unique and in ascending order, so two grammars that
hold the same productions under the same keys are equal. A grammar that comes from a source holds
each production under the spelling of its name.
-/

namespace GrammarCheck

/-- Productions under ascending keys. -/
structure Grammar where
  entries : List (String × Production)
  ordered : entries.Pairwise (·.1 < ·.1)
deriving DecidableEq

namespace Grammar

def empty : Grammar := ⟨[], .nil⟩

instance : EmptyCollection Grammar := ⟨empty⟩

instance : Inhabited Grammar := ⟨empty⟩

def keys (grammar : Grammar) : List String := grammar.entries.map (·.1)

def productions (grammar : Grammar) : List Production := grammar.entries.map (·.2)

def size (grammar : Grammar) : Nat := grammar.entries.length

def isEmpty (grammar : Grammar) : Bool := grammar.entries.isEmpty

def find? (grammar : Grammar) (key : String) : Option Production :=
  (grammar.entries.find? (·.1 == key)).map (·.2)

def contains (grammar : Grammar) (key : String) : Bool := (grammar.find? key).isSome

/-! ### Changing a grammar -/

/-- The entries with a production under a key, instead of the one that was there. -/
def insertEntry (key : String) (production : Production) :
    List (String × Production) → List (String × Production)
  | [] => [(key, production)]
  | entry :: rest =>
    if key < entry.1 then (key, production) :: entry :: rest
    else if key = entry.1 then (key, production) :: rest
    else entry :: insertEntry key production rest

theorem mem_insertEntry {key : String} {production : Production} {entries : List (String × Production)}
    {entry : String × Production} (hmem : entry ∈ insertEntry key production entries) :
    entry = (key, production) ∨ entry ∈ entries := by
  induction entries with
  | nil => simpa [insertEntry] using hmem
  | cons head rest ih =>
    simp only [insertEntry] at hmem
    split at hmem
    · simpa using hmem
    · split at hmem
      · rcases List.mem_cons.mp hmem with heq | hrest
        · exact .inl heq
        · exact .inr (List.mem_cons_of_mem _ hrest)
      · rcases List.mem_cons.mp hmem with heq | hrest
        · exact .inr (heq ▸ List.mem_cons_self)
        · exact (ih hrest).imp_right (List.mem_cons_of_mem _)

theorem ordered_insertEntry (key : String) (production : Production) {entries : List (String × Production)}
    (hordered : entries.Pairwise (·.1 < ·.1)) :
    (insertEntry key production entries).Pairwise (·.1 < ·.1) := by
  induction entries with
  | nil => simp [insertEntry]
  | cons head rest ih =>
    rw [List.pairwise_cons] at hordered
    simp only [insertEntry]
    split
    · next hlt =>
      refine List.pairwise_cons.mpr ⟨?_, List.pairwise_cons.mpr hordered⟩
      intro entry hmem
      rcases List.mem_cons.mp hmem with rfl | hrest
      · exact hlt
      · exact String.lt_trans hlt (hordered.1 entry hrest)
    · next hnotLt =>
      split
      · next heq => exact List.pairwise_cons.mpr ⟨fun entry hmem => heq ▸ hordered.1 entry hmem, hordered.2⟩
      · next hne =>
        refine List.pairwise_cons.mpr ⟨?_, ih hordered.2⟩
        intro entry hmem
        rcases mem_insertEntry hmem with rfl | hrest
        · rcases String.le_total head.1 key with hle | hle
          · exact String.not_le.mp fun hge => hne (String.le_antisymm hge hle)
          · exact absurd (String.not_le.mp fun hge => hne (String.le_antisymm hle hge)) hnotLt
        · exact hordered.1 entry hrest

/-- The grammar with a production under a key, instead of the one that was there. -/
def insert (grammar : Grammar) (key : String) (production : Production) : Grammar :=
  ⟨insertEntry key production grammar.entries, ordered_insertEntry key production grammar.ordered⟩

def erase (grammar : Grammar) (key : String) : Grammar :=
  ⟨grammar.entries.filter (·.1 != key), grammar.ordered.filter _⟩

/-- Erasing the key of a production makes the grammar smaller. -/
theorem size_erase_lt {grammar : Grammar} {key : String} {production : Production}
    (hfind : grammar.find? key = some production) : (grammar.erase key).size < grammar.size := by
  obtain ⟨entry, hentry, -⟩ := Option.map_eq_some_iff.mp hfind
  refine List.length_filter_lt_length_iff_exists.mpr ⟨entry, List.mem_of_find?_eq_some hentry, ?_⟩
  simpa using List.find?_some hentry

/-! ### Text -/

/-- The grammar as a source spells it, one production on each line. -/
def render (grammar : Grammar) : String :=
  String.join (grammar.productions.map (·.render ++ "\n"))

end Grammar

end GrammarCheck
