import GrammarCheck.Proofs.Reading.Definitions
import GrammarCheck.Proofs.Verification.Agreement
import GrammarCheck.Text.Utf8.Lemmas

/-!
# Grammars under other names

The names of productions can be exchanged for others, as long as different names stay different. The keys
then have another order, but a search goes by the order in which productions name each other, so that it
visits the same productions in the same order. Only the productions that it does not reach are listed by
their keys.
-/

namespace GrammarCheck

/-- The token of another name, with the bytes of the name as its text. -/
def Token.renamed (rename : String → String) (token : Token) : Token :=
  { token with text := Utf8.encode (rename token.spelling) }

namespace Expression

mutual

/-- The expression with other names for the productions that it refers to. -/
def renamed (rename : String → String) : Expression → Expression
  | .alternative branches => .alternative (renamedAll rename branches)
  | .sequence terms => .sequence (renamedAll rename terms)
  | .name token => .name (token.renamed rename)
  | .literal token => .literal token
  | .enclosed bracket opening body => .enclosed bracket opening (renamed rename body)
  | .malformed found problem => .malformed found problem

def renamedAll (rename : String → String) : List Expression → List Expression
  | [] => []
  | expression :: rest => renamed rename expression :: renamedAll rename rest

end

def Occurrence.renamed (rename : String → String) : Occurrence → Occurrence
  | .reference token => .reference (token.renamed rename)
  | .problem diagnostic => .problem diagnostic

end Expression

/-- The production with other names in its right-hand side. -/
def Production.renamed (rename : String → String) (production : Production) : Production :=
  { production with expression := production.expression.map (Expression.renamed rename) }

namespace Grammar

def renamedEntry (rename : String → String) (entry : String × Production) : String × Production :=
  (rename entry.1, entry.2.renamed rename)

/-- The grammar with other names for its keys, in the order of the new ones. -/
def renamed (rename : String → String) (grammar : Grammar) : Grammar :=
  grammar.entries.foldr (fun entry renamed => renamed.insert (rename entry.1) (entry.2.renamed rename)) .empty

end Grammar

/-- The diagnostic about another name. Problems with the syntax say nothing about the names of a grammar. -/
def Diagnostic.renamed (rename : String → String) : Diagnostic → Diagnostic
  | .noStartProduction name => .noStartProduction (rename name)
  | .missingProduction name position => .missingProduction (rename name) position
  | .unreachable key line => .unreachable (rename key) line
  | .nonLexicalReference name position => .nonLexicalReference (rename name) position
  | problem => problem

variable {rename : String → String}

theorem Diagnostic.renamed_of_isSyntax {problem : Diagnostic} (hproblem : problem.isSyntax = true) :
    problem.renamed rename = problem := by
  cases problem <;> first | rfl | contradiction

/-! ### Names in productions -/

@[simp] theorem Token.spelling_renamed (token : Token) : (token.renamed rename).spelling = rename token.spelling :=
  Utf8.decodeLossy_encode _

namespace Expression

mutual

theorem occurrences_renamed : ∀ expression : Expression,
    (expression.renamed rename).occurrences = expression.occurrences.map (Occurrence.renamed rename)
  | .alternative branches => by rw [renamed, occurrences, occurrences, occurrencesAll_renamedAll branches]
  | .sequence terms => by rw [renamed, occurrences, occurrences, occurrencesAll_renamedAll terms]
  | .name _ => rfl
  | .literal _ => rfl
  | .enclosed _ _ body => by rw [renamed, occurrences, occurrences, occurrences_renamed body]
  | .malformed .. => rfl

theorem occurrencesAll_renamedAll : ∀ expressions : List Expression,
    occurrencesAll (renamedAll rename expressions) = (occurrencesAll expressions).map (Occurrence.renamed rename)
  | [] => rfl
  | expression :: rest => by
    rw [renamedAll, occurrencesAll, occurrencesAll, List.map_append, occurrences_renamed expression,
      occurrencesAll_renamedAll rest]

end

end Expression

theorem Production.occurrences_renamed (production : Production) :
    (production.renamed rename).occurrences = production.occurrences.map (Expression.Occurrence.renamed rename) := by
  obtain ⟨name, expression⟩ := production
  cases expression with
  | none => rfl
  | some expression => exact expression.occurrences_renamed

theorem Production.references_renamed (production : Production) :
    (production.renamed rename).references = production.references.map rename := by
  rw [references, references, occurrences_renamed, List.filterMap_map, List.map_filterMap]
  congr 1
  funext occurrence
  cases occurrence with
  | reference token => exact congrArg some token.spelling_renamed
  | problem problem => rfl

namespace Grammar

variable {grammar : Grammar} {start : String}

/-! ### What a renamed grammar holds -/

/-- By induction on the entries. Each is new, since its name differs from those of the others. -/
theorem entries_foldr_insert_perm (hinjective : Function.Injective rename) {entries : List (String × Production)}
    (hordered : entries.Pairwise (·.1 < ·.1)) :
    (entries.foldr (fun entry renamed => renamed.insert (rename entry.1) (entry.2.renamed rename))
      Grammar.empty).entries.Perm (entries.map (renamedEntry rename)) := by
  induction entries with
  | nil => exact .refl _
  | cons entry rest ih =>
    obtain ⟨hfirst, hrest⟩ := List.pairwise_cons.1 hordered
    have hperm := ih hrest
    rw [List.foldr_cons, List.map_cons]
    refine (entries_insert_perm ?_).trans (hperm.cons _)
    apply Option.eq_none_iff_forall_ne_some.2
    intro production hfind
    obtain ⟨other, hother, heq⟩ := List.mem_map.1 (hperm.mem_iff.1 (find?_eq_some_iff.1 hfind))
    have hkey : other.1 = entry.1 := hinjective (congrArg Prod.fst heq)
    exact String.lt_irrefl entry.1 (hkey ▸ hfirst other hother)

theorem entries_renamed_perm (hinjective : Function.Injective rename) (grammar : Grammar) :
    (grammar.renamed rename).entries.Perm (grammar.entries.map (renamedEntry rename)) :=
  entries_foldr_insert_perm hinjective grammar.ordered

theorem find?_renamed (hinjective : Function.Injective rename) (key : String) :
    (grammar.renamed rename).find? (rename key) = (grammar.find? key).map (Production.renamed rename) := by
  apply Option.ext
  intro production
  rw [find?_eq_some_iff, (entries_renamed_perm hinjective grammar).mem_iff, List.mem_map, Option.map_eq_some_iff]
  constructor
  · intro ⟨entry, hentry, heq⟩
    obtain ⟨hkey, hproduction⟩ := Prod.mk.inj heq
    obtain rfl : entry.1 = key := hinjective hkey
    exact ⟨entry.2, find?_eq_some_iff.2 hentry, hproduction⟩
  · intro ⟨kept, hfind, hproduction⟩
    exact ⟨(key, kept), find?_eq_some_iff.1 hfind, Prod.ext rfl hproduction⟩

theorem contains_renamed (hinjective : Function.Injective rename) (name : String) :
    (grammar.renamed rename).contains (rename name) = grammar.contains name := by
  rw [contains, contains, find?_renamed hinjective, Option.isSome_map]

theorem namedBy_renamed (hinjective : Function.Injective rename) (key : String) :
    (grammar.renamed rename).namedBy (rename key) = (grammar.namedBy key).map rename := by
  rw [namedBy, namedBy, find?_renamed hinjective]
  cases grammar.find? key with
  | none => rfl
  | some production => exact production.references_renamed

/-! ### The order of visits -/

/-- By induction on the names, of which the last one adds a key or none. -/
theorem keysAmong_renamed (hinjective : Function.Injective rename) (names : List String) :
    (grammar.renamed rename).keysAmong (names.map rename) = (grammar.keysAmong names).map rename := by
  induction names using List.reverseRecOn with
  | nil => rfl
  | append_singleton names name ih =>
    rw [List.map_append, List.map_singleton, keysAmong_concat, keysAmong_concat, ih, contains_renamed hinjective,
      List.map_append, apply_ite (List.map rename)]
    simp only [List.mem_map_of_injective hinjective, List.map_singleton, List.map_nil]

theorem waiting_renamed (hinjective : Function.Injective rename) (keys : List String) :
    (grammar.renamed rename).waiting (rename start) (keys.map rename) = (grammar.waiting start keys).map rename := by
  have hnames : rename start :: (keys.map rename).flatMap (grammar.renamed rename).namedBy =
      (start :: keys.flatMap grammar.namedBy).map rename := by
    rw [List.map_cons, List.flatMap_map, List.map_flatMap]
    congr 2
    funext key
    exact namedBy_renamed hinjective key
  rw [waiting, waiting, hnames, keysAmong_renamed hinjective, List.filter_map]
  congr 2
  funext key
  exact decide_eq_decide.2 (not_congr (List.mem_map_of_injective hinjective))

theorem VisitsLatest.renamed (hinjective : Function.Injective rename) {keys : List String}
    (hlatest : grammar.VisitsLatest start keys) :
    (grammar.renamed rename).VisitsLatest (rename start) (keys.map rename) := by
  intro earlier key later hsplit
  obtain ⟨earlier, rest, rfl, rfl, hrest⟩ := List.map_eq_append_iff.1 hsplit
  obtain ⟨key, later, rfl, rfl, rfl⟩ := List.map_eq_cons_iff.1 hrest
  rw [waiting_renamed hinjective, List.getLast?_map, hlatest earlier key later rfl, Option.map_some]

/-- A search visits the same productions under their new names, in the same order. -/
theorem visitedKeys_renamed (hinjective : Function.Injective rename) (grammar : Grammar) (start : String) :
    ((grammar.renamed rename).search (rename start)).visitedKeys = (grammar.search start).visitedKeys.map rename := by
  apply VisitsLatest.eq (valid_search _ _).visitsLatest
    ((valid_search grammar start).visitsLatest.renamed hinjective) (waiting_search _ _)
  rw [waiting_renamed hinjective, waiting_search, List.map_nil]

/-! ### What is reported -/

theorem findings_renamed (hinjective : Function.Injective rename) {production : Production}
    (hstores : production.StoresSyntax) :
    (production.renamed rename).findings (grammar.renamed rename) =
      (production.findings grammar).map (Diagnostic.renamed rename) := by
  rw [Production.findings, Production.findings, Production.occurrences_renamed, List.flatMap_map, List.map_flatMap]
  refine List.flatMap_congr fun occurrence hoccurrence => ?_
  cases occurrence with
  | problem problem =>
    exact congrArg (fun problem => [problem])
      (Diagnostic.renamed_of_isSyntax (hstores.isSyntax_of_mem hoccurrence)).symm
  | reference token =>
    rw [Expression.Occurrence.renamed, Production.findingsAt, Production.findingsAt, Token.spelling_renamed,
      contains_renamed hinjective, List.map_append, apply_ite (List.map _), apply_ite (List.map _)]
    rfl

theorem walk_renamed (hinjective : Function.Injective rename) (hstores : grammar.StoresSyntax) (key : String) :
    (grammar.renamed rename).walk (rename key) = (grammar.walk key).map (Diagnostic.renamed rename) := by
  rw [walk, walk, find?_renamed hinjective]
  cases hfind : grammar.find? key with
  | none => rfl
  | some production =>
    rw [Option.map_some, Option.elim_some, Option.elim_some, ← Production.findings_eq_walk,
      ← Production.findings_eq_walk, findings_renamed hinjective (hstores.of_find? hfind)]

/-- The problems that are no unreachable productions are those on the way. -/
theorem filter_isNone_verify (hstores : grammar.StoresSyntax) (hstart : grammar.contains start = true) :
    (grammar.verify start).filter (·.unreachableKey?.isNone) =
      (grammar.search start).visitedKeys.flatMap grammar.walk := by
  have hwalks : ∀ problem ∈ (grammar.search start).visitedKeys.flatMap grammar.walk,
      problem.unreachableKey?.isNone = true := by
    intro problem hmem
    obtain ⟨key, _, hmem⟩ := List.mem_flatMap.1 hmem
    rw [unreachableKey?_of_mem_walk hstores hmem]
    rfl
  rw [verify_eq_append hstart, List.filter_append, List.filter_eq_self.2 hwalks, List.filter_map,
    List.filter_eq_nil_iff.2 (by simp [unreachableEntry, Diagnostic.unreachableKey?]), List.map_nil, List.append_nil]

theorem filter_isSome_verify (hstores : grammar.StoresSyntax) (hstart : grammar.contains start = true) :
    (grammar.verify start).filter (·.unreachableKey?.isSome) =
      (grammar.entries.filter (·.1 ∉ (grammar.search start).visitedKeys)).map unreachableEntry := by
  have hwalks : ∀ problem ∈ (grammar.search start).visitedKeys.flatMap grammar.walk,
      ¬problem.unreachableKey?.isSome = true := by
    intro problem hmem
    obtain ⟨key, _, hmem⟩ := List.mem_flatMap.1 hmem
    rw [unreachableKey?_of_mem_walk hstores hmem]
    exact Bool.false_ne_true
  rw [verify_eq_append hstart, List.filter_append, List.filter_eq_nil_iff.2 hwalks, List.nil_append, List.filter_map,
    List.filter_eq_self.2 (by simp [unreachableEntry, Diagnostic.unreachableKey?])]

/-- Under other names, verifying finds the same problems on the way, in the same order and with the new
names in them. The same productions are not reached, and they are reported in the order of their new
keys. -/
theorem verify_renamed (hinjective : Function.Injective rename) (hstores : grammar.StoresSyntax) (start : String) :
    ∃ unreached : List Diagnostic,
      (grammar.renamed rename).verify (rename start) =
        ((grammar.verify start).filter (·.unreachableKey?.isNone)).map (Diagnostic.renamed rename) ++ unreached ∧
      unreached.Perm (((grammar.verify start).filter (·.unreachableKey?.isSome)).map (Diagnostic.renamed rename)) ∧
      (unreached.filterMap Diagnostic.unreachableKey?).Pairwise (· < ·) := by
  have hcontains : (grammar.renamed rename).contains (rename start) = grammar.contains start :=
    contains_renamed hinjective start
  cases hstart : grammar.contains start with
  | false =>
    refine ⟨[], ?_, ?_, .nil⟩
    · rw [verify, verify, hcontains, hstart]
      rfl
    · rw [verify, hstart]
      exact .refl _
  | true =>
    refine ⟨((grammar.renamed rename).entries.filter
      (·.1 ∉ (grammar.search start).visitedKeys.map rename)).map unreachableEntry, ?_, ?_, ?_⟩
    · have hwalks : ((grammar.search start).visitedKeys.map rename).flatMap (grammar.renamed rename).walk =
          ((grammar.search start).visitedKeys.flatMap grammar.walk).map (Diagnostic.renamed rename) := by
        rw [List.flatMap_map, List.map_flatMap]
        exact List.flatMap_congr fun key _ => walk_renamed hinjective hstores key
      rw [verify_eq_append (hcontains.trans hstart), visitedKeys_renamed hinjective, filter_isNone_verify hstores hstart,
        hwalks]
    · have hentries : (grammar.entries.map (renamedEntry rename)).filter
          (·.1 ∉ (grammar.search start).visitedKeys.map rename) =
            (grammar.entries.filter (·.1 ∉ (grammar.search start).visitedKeys)).map (renamedEntry rename) := by
        rw [List.filter_map]
        congr 2
        funext entry
        exact decide_eq_decide.2 (not_congr (List.mem_map_of_injective hinjective))
      have hperm := ((entries_renamed_perm hinjective grammar).filter
        (·.1 ∉ (grammar.search start).visitedKeys.map rename)).map unreachableEntry
      rw [hentries, List.map_map] at hperm
      rw [filter_isSome_verify hstores hstart, List.map_map]
      exact hperm
    · have hkeys : Diagnostic.unreachableKey? ∘ unreachableEntry = some ∘ Prod.fst := rfl
      rw [List.filterMap_map, hkeys, List.filterMap_eq_map]
      exact List.pairwise_map.2 ((grammar.renamed rename).ordered.filter _)

/-- Spelled backwards, `az` and `by` change places. -/
theorem verify_renamed_backwards :
    let grammar := (Reading.ofSource (Utf8.encode "s = s no ( ) .\naz = s .\nby = .")).grammar
    let backwards := fun name : String => String.ofList name.toList.reverse
    Function.Injective backwards ∧ grammar.StoresSyntax ∧ (grammar.renamed backwards).keys = ["s", "yb", "za"] ∧
      grammar.verify "s" = [.missingProduction "no" ⟨1, 7⟩, .emptySequence ⟨1, 12⟩ "END_GROUP", .unreachable "az" 2,
        .unreachable "by" 3] ∧
      ∃ unreached : List Diagnostic,
        (grammar.renamed backwards).verify "s" =
          [.missingProduction "on" ⟨1, 7⟩, .emptySequence ⟨1, 12⟩ "END_GROUP"] ++ unreached ∧
        unreached.Perm [.unreachable "za" 2, .unreachable "yb" 3] ∧
        (unreached.filterMap Diagnostic.unreachableKey?).Pairwise (· < ·) := by
  intro grammar backwards
  have hinjective : Function.Injective backwards := by
    intro name other heq
    exact String.toList_inj.1 (List.reverse_injective (String.ofList_inj.1 heq))
  have hstores : grammar.StoresSyntax := by decide +kernel
  have hverify : grammar.verify "s" = [.missingProduction "no" ⟨1, 7⟩, .emptySequence ⟨1, 12⟩ "END_GROUP",
      .unreachable "az" 2, .unreachable "by" 3] := by decide +kernel
  have hstart : backwards "s" = "s" := by decide +kernel
  obtain ⟨unreached, hrenamed, hperm, hsorted⟩ := verify_renamed hinjective hstores "s"
  rw [hstart, hverify] at hrenamed
  rw [hverify] at hperm
  refine ⟨hinjective, hstores, by decide +kernel, hverify, unreached, ?_, ?_, hsorted⟩
  · exact hrenamed.trans (congrArg (· ++ unreached) (by decide +kernel))
  · exact hperm.trans (List.Perm.of_eq (by decide +kernel))

end Grammar

end GrammarCheck
