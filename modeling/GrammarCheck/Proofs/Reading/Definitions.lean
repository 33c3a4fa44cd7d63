import GrammarCheck.Grammar.Lemmas
import GrammarCheck.Proofs.Reading.Course

/-!
# What events define

Events add productions to a grammar and diagnostics to a list. Events in a row do what the first ones
do and then, to the grammar that these leave, what the others do. The entries of the grammar are those
that it had and the productions that were defined, each under its name.
-/

namespace GrammarCheck

namespace Grammar

theorem insertEntry_perm {key : String} {production : Production} {entries : List (String × Production)}
    (hnew : ∀ entry ∈ entries, key ≠ entry.1) :
    (insertEntry key production entries).Perm ((key, production) :: entries) := by
  induction entries with
  | nil => exact List.Perm.refl _
  | cons entry rest ih =>
    obtain ⟨hentry, hrest⟩ := List.forall_mem_cons.1 hnew
    rw [insertEntry, if_neg hentry]
    split
    · exact List.Perm.refl _
    · exact ((ih hrest).cons entry).trans (List.Perm.swap _ _ rest)

theorem entries_insert_perm {grammar : Grammar} {key : String} {production : Production}
    (hnew : grammar.find? key = none) :
    (grammar.insert key production).entries.Perm ((key, production) :: grammar.entries) := by
  apply insertEntry_perm
  intro entry hmem hkey
  have hfind : grammar.find? key = some entry.2 := find?_eq_some_iff.2 (hkey ▸ hmem)
  rw [hnew] at hfind
  contradiction

theorem mem_keys_iff {grammar : Grammar} {key : String} :
    key ∈ grammar.keys ↔ ∃ production, grammar.find? key = some production := by
  rw [keys, List.mem_map]
  constructor
  · intro ⟨entry, hmem, hkey⟩
    exact ⟨entry.2, find?_eq_some_iff.2 (hkey ▸ hmem)⟩
  · intro ⟨production, hfind⟩
    exact ⟨(key, production), find?_eq_some_iff.1 hfind, rfl⟩

theorem not_mem_keys_iff {grammar : Grammar} {key : String} : key ∉ grammar.keys ↔ grammar.find? key = none := by
  rw [mem_keys_iff, ← Option.isSome_iff_exists, Option.not_isSome_iff_eq_none]

end Grammar

/-- The production under its name. -/
def Production.entry (production : Production) : String × Production := (production.name.spelling, production)

namespace Reading

@[simp] theorem definitions_report (diagnostic : Diagnostic) (reading : Reading) :
    (report diagnostic reading).definitions = reading.definitions := rfl

@[simp] theorem diagnostics_report (diagnostic : Diagnostic) (reading : Reading) :
    (report diagnostic reading).diagnostics = diagnostic :: reading.diagnostics := rfl

@[simp] theorem definitions_define (production : Production) (reading : Reading) :
    (define production reading).definitions = production :: reading.definitions := rfl

@[simp] theorem diagnostics_define (production : Production) (reading : Reading) :
    (define production reading).diagnostics = reading.diagnostics := rfl

/-! ### One event -/

variable {grammar : Grammar} {production previous : Production} {events rest : List Event}

theorem ofEvents_unnamed (hkind : production.name.kind ≠ .nonTerminal) :
    ofEvents grammar (.production production :: rest) = ofEvents grammar rest :=
  if_neg hkind

theorem ofEvents_repeated (hkind : production.name.kind = .nonTerminal)
    (hfind : grammar.find? production.name.spelling = some previous) :
    ofEvents grammar (.production production :: rest) =
      report (.duplicateProduction production.name.spelling production.name.line previous.name.line)
        (ofEvents grammar rest) := by
  rw [ofEvents, if_pos hkind, hfind]

theorem ofEvents_new (hkind : production.name.kind = .nonTerminal)
    (hfind : grammar.find? production.name.spelling = none) :
    ofEvents grammar (.production production :: rest) =
      define production (ofEvents (grammar.insert production.name.spelling production) rest) := by
  rw [ofEvents, if_pos hkind, hfind]

/-! ### Events in a row -/

/-- The reading and what is read after it into its grammar. -/
def followedBy (reading later : Reading) : Reading where
  grammar := later.grammar
  definitions := reading.definitions ++ later.definitions
  diagnostics := reading.diagnostics ++ later.diagnostics

theorem definitions_followedBy (reading later : Reading) :
    (reading.followedBy later).definitions = reading.definitions ++ later.definitions := rfl

theorem ofEvents_append (grammar : Grammar) (first second : List Event) :
    ofEvents grammar (first ++ second) =
      (ofEvents grammar first).followedBy (ofEvents (ofEvents grammar first).grammar second) := by
  fun_induction ofEvents grammar first with
  | case1 grammar => rfl
  | case2 grammar problem rest ih =>
    rw [List.cons_append, ofEvents, ih]
    rfl
  | case3 grammar production rest hkind previous hfind ih =>
    rw [List.cons_append, ofEvents_repeated hkind hfind, ih]
    rfl
  | case4 grammar production rest hkind hfind ih =>
    rw [List.cons_append, ofEvents_new hkind hfind, ih]
    rfl
  | case5 grammar production rest hkind ih => rw [List.cons_append, ofEvents_unnamed hkind, ih]

/-- Problems are reported and change nothing. -/
theorem ofEvents_problems {tokens : List Token} (hevents : ∀ event ∈ events, event.IsProblemIn tokens) :
    (ofEvents grammar events).grammar = grammar ∧ (ofEvents grammar events).definitions = [] := by
  induction events with
  | nil => exact ⟨rfl, rfl⟩
  | cons event rest ih =>
    obtain ⟨hevent, hrest⟩ := List.forall_mem_cons.1 hevents
    cases event with
    | problem problem => exact ih hrest
    | production production => exact hevent.elim

theorem mem_diagnostics_of_mem {problem : Diagnostic} (hmem : .problem problem ∈ events) :
    problem ∈ (ofEvents grammar events).diagnostics := by
  fun_induction ofEvents grammar events with
  | case1 => contradiction
  | case2 grammar other rest ih =>
    rcases List.mem_cons.1 hmem with heq | hrest
    · rw [Event.problem.inj heq]
      exact List.mem_cons_self
    · exact List.mem_cons_of_mem other (ih hrest)
  | case3 grammar production rest _ previous _ ih => exact List.mem_cons_of_mem _ (ih (by simpa using hmem))
  | case4 grammar production rest _ _ ih => exact ih (by simpa using hmem)
  | case5 grammar production rest _ ih => exact ih (by simpa using hmem)

/-! ### Definitions -/

theorem sublist_definitions (grammar : Grammar) (events : List Event) :
    (ofEvents grammar events).definitions.Sublist (productionsOf events) := by
  fun_induction ofEvents grammar events with
  | case1 => exact List.Sublist.refl _
  | case2 grammar problem rest ih => exact ih
  | case3 grammar production rest _ previous _ ih => exact ih.trans (List.sublist_cons_self production _)
  | case4 grammar production rest _ _ ih => exact ih.cons_cons production
  | case5 grammar production rest _ ih => exact ih.trans (List.sublist_cons_self production _)

theorem kind_of_mem_definitions {grammar : Grammar} {events : List Event} :
    ∀ production ∈ (ofEvents grammar events).definitions, production.name.kind = .nonTerminal := by
  fun_induction ofEvents grammar events with
  | case1 => simp
  | case2 grammar problem rest ih => exact ih
  | case3 grammar production rest _ previous _ ih => exact ih
  | case4 grammar production rest hkind _ ih => exact List.forall_mem_cons.2 ⟨hkind, ih⟩
  | case5 grammar production rest _ ih => exact ih

theorem entries_ofEvents_perm (grammar : Grammar) (events : List Event) :
    (ofEvents grammar events).grammar.entries.Perm
      (grammar.entries ++ (ofEvents grammar events).definitions.map Production.entry) := by
  fun_induction ofEvents grammar events with
  | case1 grammar => rw [List.map_nil, List.append_nil]
  | case2 grammar problem rest ih => exact ih
  | case3 grammar production rest _ previous _ ih => exact ih
  | case4 grammar production rest _ hfind ih =>
    exact (ih.trans ((Grammar.entries_insert_perm hfind).append_right _)).trans List.perm_middle.symm
  | case5 grammar production rest _ ih => exact ih

/-! ### A whole stream -/

theorem grammar_ofTokens (tokens : List Token) :
    (ofTokens tokens).grammar = (ofEvents .empty (TokenStream.ofTokens tokens).events).grammar := rfl

theorem definitions_ofTokens (tokens : List Token) :
    (ofTokens tokens).definitions = (ofEvents .empty (TokenStream.ofTokens tokens).events).definitions := rfl

theorem entries_ofTokens_perm (tokens : List Token) :
    (ofTokens tokens).grammar.entries.Perm ((ofTokens tokens).definitions.map Production.entry) :=
  entries_ofEvents_perm .empty _

theorem productions_ofTokens_perm (tokens : List Token) :
    (ofTokens tokens).grammar.productions.Perm (ofTokens tokens).definitions := by
  have hentries := (entries_ofTokens_perm tokens).map Prod.snd
  rw [List.map_map] at hentries
  exact hentries.trans (List.Perm.of_eq (List.map_id _))

/-- What is under a key is what has been defined with the key as its name. -/
theorem find?_ofTokens_eq_some_iff {tokens : List Token} {key : String} :
    (ofTokens tokens).grammar.find? key = some production ↔
      production ∈ (ofTokens tokens).definitions ∧ production.name.spelling = key := by
  rw [Grammar.find?_eq_some_iff, (entries_ofTokens_perm tokens).mem_iff, List.mem_map]
  constructor
  · intro ⟨other, hmem, hentry⟩
    obtain ⟨hkey, rfl⟩ := Prod.mk.inj hentry
    exact ⟨hmem, hkey⟩
  · intro ⟨hmem, hkey⟩
    exact ⟨production, hmem, by rw [Production.entry, hkey]⟩

end Reading

end GrammarCheck
