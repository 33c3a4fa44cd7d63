import GrammarCheck.Proofs.Syntax.Tree

/-!
# The grammar of grammars

The kinds of tokens that form a term, a sequence, an expression and a production, as a context-free
grammar, and the token sequences that are productions in a row. What spells a fitting tree is
derivable, and every derivation belongs to a tree that its tokens spell.
-/

namespace GrammarCheck

inductive Symbol where
  | term
  | sequence
  | expression
  | production
deriving DecidableEq, Repr

/-- The kinds are derivable from the symbol. -/
inductive Derives : Symbol → List Kind → Prop
  | nonTerminal : Derives .term [.nonTerminal]
  | terminal : Derives .term [.terminal]
  | enclosed (bracket : Bracket) {body : List Kind} :
      Derives .expression body → Derives .term (.opening bracket :: (body ++ [.closing bracket]))
  | ofTerm {term : List Kind} : Derives .term term → Derives .sequence term
  | juxtapose {term sequence : List Kind} :
      Derives .term term → Derives .sequence sequence → Derives .sequence (term ++ sequence)
  | ofSequence {sequence : List Kind} : Derives .sequence sequence → Derives .expression sequence
  | separate {sequence expression : List Kind} :
      Derives .sequence sequence → Derives .expression expression →
        Derives .expression (sequence ++ .bar :: expression)
  | emptyProduction : Derives .production [.nonTerminal, .equals, .terminator]
  | production {expression : List Kind} :
      Derives .expression expression →
        Derives .production (.nonTerminal :: .equals :: (expression ++ [.terminator]))

/-- The tokens are productions in a row, with the given names. -/
inductive DerivesProductions : List Token → List Token → Prop
  | nil : DerivesProductions [] []
  | cons {name : Token} {tokens rest names : List Token} :
      Derives .production ((name :: tokens).map (·.kind)) → DerivesProductions rest names →
        DerivesProductions (name :: tokens ++ rest) (name :: names)

namespace Expression

open Expression

/-! ### Trees spell derivable sequences -/

/-- The symbol that derives the expressions of a level. -/
def Level.symbol : Level → Symbol
  | .term => .term
  | .branch => .sequence
  | .whole => .expression

theorem derives_of_term {level : Level} {kinds : List Kind} (hterm : Derives .term kinds) :
    Derives level.symbol kinds := by
  cases level with
  | term => exact hterm
  | branch => exact .ofTerm hterm
  | whole => exact .ofSequence (.ofTerm hterm)

theorem derives_of_sequence {level : Level} {kinds : List Kind} (hlevel : level ≠ .term)
    (hsequence : Derives .sequence kinds) : Derives level.symbol kinds := by
  cases level with
  | term => exact absurd rfl hlevel
  | branch => exact hsequence
  | whole => exact .ofSequence hsequence

theorem derives_sequence {terms : List (List Kind)} (hne : terms ≠ [])
    (hterms : ∀ term ∈ terms, Derives .term term) : Derives .sequence terms.flatten := by
  induction terms with
  | nil => exact absurd rfl hne
  | cons term rest ih =>
    have hterm := hterms term List.mem_cons_self
    by_cases hrest : rest = []
    · rw [hrest, List.flatten_singleton]
      exact .ofTerm hterm
    · rw [List.flatten_cons]
      exact .juxtapose hterm (ih hrest fun other hother => hterms other (List.mem_cons_of_mem _ hother))

theorem derives_expression {branches : List (List Kind)} (hne : branches ≠ [])
    (hbranches : ∀ branch ∈ branches, Derives .sequence branch) :
    Derives .expression ([Kind.bar].intercalate branches) := by
  induction branches with
  | nil => exact absurd rfl hne
  | cons branch rest ih =>
    have hbranch := hbranches branch List.mem_cons_self
    by_cases hrest : rest = []
    · rw [hrest, List.intercalate_singleton]
      exact .ofSequence hbranch
    · rw [List.intercalate_cons_of_ne_nil hrest, List.append_assoc]
      exact .separate hbranch (ih hrest fun other hother => hbranches other (List.mem_cons_of_mem _ hother))

theorem map_intercalate {α β : Type} (f : α → β) (separator : List α) (parts : List (List α)) :
    (separator.intercalate parts).map f = (separator.map f).intercalate (parts.map (·.map f)) := by
  induction parts with
  | nil => rfl
  | cons part rest ih =>
    by_cases hrest : rest = []
    · rw [hrest, List.map_singleton, List.intercalate_singleton, List.intercalate_singleton]
    · rw [List.map_cons, List.intercalate_cons_of_ne_nil hrest,
        List.intercalate_cons_of_ne_nil (by simpa using hrest), List.map_append, List.map_append, ih]

/-- What spells a fitting expression is derivable from the symbol of its level. -/
theorem Shaped.derives {level : Level} {expression : Expression} (hshaped : expression.Shaped .fitting level) :
    Derives level.symbol (expression.toTokens.map (·.kind)) := by
  induction hshaped with
  | @name level token htoken =>
    have hkind : token.kind = .nonTerminal := htoken
    simpa [toTokens, hkind] using derives_of_term .nonTerminal
  | @literal level token htoken =>
    have hkind : token.kind = .terminal := htoken
    simpa [toTokens, hkind] using derives_of_term .terminal
  | @enclosed level bracket opening body hopening _ ih =>
    have hkind : opening.kind = .opening bracket := hopening
    simpa [toTokens, hkind] using derives_of_term (.enclosed bracket ih)
  | malformed _ hproblem => exact hproblem.elim
  | @sequence level terms hlevel hlength _ ih =>
    rw [toTokens_sequence, List.map_flatMap, List.flatMap_def]
    refine derives_of_sequence hlevel (derives_sequence ?_ ?_)
    · intro hnil
      rw [List.map_eq_nil_iff.mp hnil] at hlength
      exact absurd hlength (by decide)
    · intro kinds hkinds
      obtain ⟨term, hterm, rfl⟩ := List.mem_map.mp hkinds
      exact ih term hterm
  | @alternative branches hlength _ ih =>
    rw [toTokens_alternative, map_intercalate]
    refine derives_expression ?_ ?_
    · intro hnil
      rw [List.map_eq_nil_iff, List.map_eq_nil_iff] at hnil
      rw [hnil] at hlength
      exact absurd hlength (by decide)
    · intro kinds hkinds
      rw [List.map_map] at hkinds
      obtain ⟨branch, hbranch, rfl⟩ := List.mem_map.mp hkinds
      exact ih branch hbranch

end Expression

theorem Production.Shaped.derives {production : Production} (hshaped : production.Shaped .fitting) :
    Derives .production (production.toTokens.map (·.kind)) := by
  have hname : production.name.kind = .nonTerminal := hshaped.heading
  unfold Production.toTokens
  cases hexpression : production.expression with
  | none => simpa [hname] using Derives.emptyProduction
  | some expression => simpa [hname] using Derives.production (hshaped.expression expression hexpression).derives

/-- Tokens that productions spell are the productions in a row. -/
theorem derivesProductions_of_toTokens {productions : List Production} {tokens : List Token}
    (hshaped : ∀ production ∈ productions, production.Shaped .fitting)
    (htokens : productions.flatMap Production.toTokens = tokens.map Token.kept) :
    DerivesProductions tokens (productions.map (·.name)) := by
  induction productions generalizing tokens with
  | nil =>
    obtain rfl : tokens = [] := List.map_eq_nil_iff.mp htokens.symm
    exact .nil
  | cons production rest ih =>
    have hproduction := hshaped production List.mem_cons_self
    have hname : production.name.kind = .nonTerminal := hproduction.heading
    obtain ⟨spelled, others, rfl, hspelled, hothers⟩ := List.map_eq_append_iff.mp htokens.symm
    obtain ⟨first, following, rfl, hfirst, hfollowing⟩ := List.map_eq_cons_iff.mp hspelled
    have hkind : first.kind = .nonTerminal := by rw [← Token.kind_kept, hfirst, hname]
    obtain rfl : first = production.name := by
      rw [← hfirst, Token.kept_of_isKept (by rw [hkind]; rfl)]
    have hkinds : (production.name :: following).map (·.kind) = production.toTokens.map (·.kind) := by
      rw [← hspelled, List.map_map]
      exact List.map_congr_left fun token _ => (Token.kind_kept token).symm
    refine .cons (hkinds ▸ hproduction.derives) (ih ?_ hothers.symm)
    exact fun other hother => hshaped other (List.mem_cons_of_mem _ hother)

namespace Expression

/-! ### Derivations belong to trees -/

/-- A tree, or the parts of one, that the tokens spell. -/
def HasTree : Symbol → List Token → Prop
  | .term, tokens => ∃ term, Shaped .fitting .term term ∧ term.toTokens = tokens.map Token.kept
  | .sequence, tokens => ∃ terms, terms ≠ [] ∧ (∀ term ∈ terms, Shaped .fitting .term term) ∧
      terms.flatMap toTokens = tokens.map Token.kept
  | .expression, tokens => ∃ branches, branches ≠ [] ∧ (∀ branch ∈ branches, Shaped .fitting .branch branch) ∧
      [Token.bare .bar].intercalate (branches.map toTokens) = tokens.map Token.kept
  | .production, tokens => ∃ production : Production, production.Shaped .fitting ∧
      production.toTokens = tokens.map Token.kept

/-- Any number of terms in a row make a branch. -/
theorem exists_branch {terms : List Expression} (hne : terms ≠ [])
    (hterms : ∀ term ∈ terms, Shaped .fitting .term term) :
    ∃ branch, Shaped .fitting .branch branch ∧ branch.toTokens = terms.flatMap toTokens := by
  match terms with
  | [] => exact absurd rfl hne
  | [term] => exact ⟨term, (hterms term (by simp)).branch_of_term, by simp⟩
  | first :: second :: rest =>
    exact ⟨.sequence (first :: second :: rest), .sequence (by decide) (by simp) hterms, toTokens_sequence _⟩

/-- Any number of branches next to each other make a whole expression. -/
theorem exists_whole {branches : List Expression} (hne : branches ≠ [])
    (hbranches : ∀ branch ∈ branches, Shaped .fitting .branch branch) :
    ∃ whole, Shaped .fitting .whole whole ∧
      whole.toTokens = [Token.bare .bar].intercalate (branches.map toTokens) := by
  match branches with
  | [] => exact absurd rfl hne
  | [branch] => exact ⟨branch, (hbranches branch (by simp)).whole_of_branch, by simp⟩
  | first :: second :: rest =>
    exact ⟨.alternative (first :: second :: rest), .alternative (by simp) hbranches, toTokens_alternative _⟩

theorem exists_singleton_of_map {tokens : List Token} {kind : Kind} (hkinds : tokens.map (·.kind) = [kind]) :
    ∃ token, tokens = [token] ∧ token.kind = kind := by
  obtain ⟨token, rest, rfl, hkind, hrest⟩ := List.map_eq_cons_iff.mp hkinds
  obtain rfl := List.map_eq_nil_iff.mp hrest
  exact ⟨token, rfl, hkind⟩

theorem Derives.hasTree {symbol : Symbol} {kinds : List Kind} (hderives : Derives symbol kinds)
    {tokens : List Token} (hkinds : tokens.map (·.kind) = kinds) : HasTree symbol tokens := by
  induction hderives generalizing tokens with
  | nonTerminal =>
    obtain ⟨token, rfl, hkind⟩ := exists_singleton_of_map hkinds
    exact ⟨.name token, .name hkind, by simp [toTokens, Token.kept_of_isKept, hkind, Kind.isKept]⟩
  | terminal =>
    obtain ⟨token, rfl, hkind⟩ := exists_singleton_of_map hkinds
    exact ⟨.literal token, .literal hkind, by simp [toTokens, Token.kept_of_isKept, hkind, Kind.isKept]⟩
  | enclosed bracket _ ih =>
    obtain ⟨opening, rest, rfl, hopening, hrest⟩ := List.map_eq_cons_iff.mp hkinds
    obtain ⟨inner, last, rfl, hinner, hlast⟩ := List.map_eq_append_iff.mp hrest
    obtain ⟨closing, rfl, hclosing⟩ := exists_singleton_of_map hlast
    obtain ⟨branches, hne, hbranches, htokens⟩ := ih hinner
    obtain ⟨body, hbody, hspelled⟩ := exists_whole hne hbranches
    refine ⟨.enclosed bracket opening body, .enclosed hopening hbody, ?_⟩
    rw [toTokens, hspelled, htokens]
    simp [Token.kept, hopening, hclosing, Kind.isKept]
  | ofTerm _ ih =>
    obtain ⟨term, hterm, htokens⟩ := ih hkinds
    exact ⟨[term], by simp, by simpa using hterm, by simpa using htokens⟩
  | juxtapose _ _ ihTerm ihSequence =>
    obtain ⟨first, rest, rfl, hfirst, hrest⟩ := List.map_eq_append_iff.mp hkinds
    obtain ⟨term, hterm, htokens⟩ := ihTerm hfirst
    obtain ⟨terms, -, hterms, hothers⟩ := ihSequence hrest
    refine ⟨term :: terms, by simp, ?_, by simp [htokens, hothers]⟩
    exact List.forall_mem_cons.mpr ⟨hterm, hterms⟩
  | ofSequence _ ih =>
    obtain ⟨terms, hne, hterms, htokens⟩ := ih hkinds
    obtain ⟨branch, hbranch, hspelled⟩ := exists_branch hne hterms
    exact ⟨[branch], by simp, by simpa using hbranch, by simpa [hspelled] using htokens⟩
  | separate _ _ ihSequence ihExpression =>
    obtain ⟨first, rest, rfl, hfirst, hrest⟩ := List.map_eq_append_iff.mp hkinds
    obtain ⟨bar, others, rfl, hbar, hothers⟩ := List.map_eq_cons_iff.mp hrest
    obtain ⟨terms, hne, hterms, htokens⟩ := ihSequence hfirst
    obtain ⟨branch, hbranch, hspelled⟩ := exists_branch hne hterms
    obtain ⟨branches, hbranchesNe, hbranches, hseparated⟩ := ihExpression hothers
    refine ⟨branch :: branches, by simp, List.forall_mem_cons.mpr ⟨hbranch, hbranches⟩, ?_⟩
    rw [List.map_cons, List.intercalate_cons_of_ne_nil (by simpa using hbranchesNe), hspelled, htokens, hseparated]
    simp [Token.kept, hbar, Kind.isKept]
  | emptyProduction =>
    obtain ⟨name, rest, rfl, hname, hrest⟩ := List.map_eq_cons_iff.mp hkinds
    obtain ⟨equals, others, rfl, hequals, hothers⟩ := List.map_eq_cons_iff.mp hrest
    obtain ⟨terminator, rfl, hterminator⟩ := exists_singleton_of_map hothers
    refine ⟨⟨name, none⟩, ⟨hname, by simp⟩, ?_⟩
    simp [Production.toTokens, Token.kept, hname, hequals, hterminator, Kind.isKept]
  | production _ ih =>
    obtain ⟨name, rest, rfl, hname, hrest⟩ := List.map_eq_cons_iff.mp hkinds
    obtain ⟨equals, others, rfl, hequals, hothers⟩ := List.map_eq_cons_iff.mp hrest
    obtain ⟨inner, last, rfl, hinner, hlast⟩ := List.map_eq_append_iff.mp hothers
    obtain ⟨terminator, rfl, hterminator⟩ := exists_singleton_of_map hlast
    obtain ⟨branches, hne, hbranches, htokens⟩ := ih hinner
    obtain ⟨expression, hexpression, hspelled⟩ := exists_whole hne hbranches
    refine ⟨⟨name, some expression⟩, ⟨hname, by simpa using hexpression⟩, ?_⟩
    simp [Production.toTokens, hspelled, htokens, Token.kept, hname, hequals, hterminator, Kind.isKept]

end Expression

/-- Productions in a row are spelled by fitting productions with the same names. -/
theorem DerivesProductions.exists_productions {tokens names : List Token}
    (hderives : DerivesProductions tokens names) :
    ∃ productions : List Production, (∀ production ∈ productions, production.Shaped .fitting) ∧
      productions.map (·.name) = names ∧ productions.flatMap Production.toTokens = tokens.map Token.kept := by
  induction hderives with
  | nil => exact ⟨[], by simp, rfl, rfl⟩
  | cons hproduction _ ih =>
    obtain ⟨production, hshaped, htokens⟩ := Expression.Derives.hasTree hproduction rfl
    obtain ⟨productions, hall, hnames, hothers⟩ := ih
    refine ⟨production :: productions, List.forall_mem_cons.mpr ⟨hshaped, hall⟩, ?_, ?_⟩
    · have hfirst := (List.cons.inj htokens).1
      have hkind : production.name.kind = .nonTerminal := hshaped.heading
      rw [hfirst, Token.kind_kept] at hkind
      rw [Token.kept_of_isKept (by rw [hkind]; rfl)] at hfirst
      rw [List.map_cons, hfirst, hnames]
    · rw [List.flatMap_cons, htokens, hothers, List.map_append]

end GrammarCheck
