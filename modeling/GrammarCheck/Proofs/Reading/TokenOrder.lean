import GrammarCheck.Proofs.Printing.Origin
import GrammarCheck.Proofs.Scanning.Prefix
import GrammarCheck.Proofs.Syntax.StoredTokens
import Mathlib.Data.List.Flatten

/-!
# The order of tokens in what is read

The reader keeps each token at most once, and in the order of the source. A step adds its token to the
end of what has been read, or leaves it out. The end of input may stand for a missing term, but only for
the innermost one, since the brackets around it have a term by then.
-/

namespace GrammarCheck

/-! ### What has been read -/

namespace Fragment

/-- The tokens kept in the fragment in the order of the source. -/
def storedTokens (fragment : Fragment) : List Token := fragment.viewed Expression.tokenView

/-- The token that stands for a missing term when it ends the fragment, if a term is missing. -/
def missingToken (fragment : Fragment) (found : Token) : List Token := if fragment.terms.isEmpty then [found] else []

variable (fragment : Fragment) (found : Token)

theorem storedTokens_push (term : Expression) :
    (fragment.push term).storedTokens = fragment.storedTokens ++ term.storedTokens :=
  fragment.viewed_push Expression.tokenView term

theorem storedTokens_expression :
    (fragment.expression found).storedTokens = fragment.storedTokens ++ fragment.missingToken found :=
  fragment.viewed_expression Expression.tokenView found

theorem storedTokens_nextBranch :
    (fragment.nextBranch found).storedTokens = fragment.storedTokens ++ fragment.missingToken found :=
  fragment.viewed_nextBranch Expression.tokenView found

theorem missingToken_sublist : (fragment.missingToken found).Sublist [found] := by
  rw [missingToken]
  split
  · exact List.Sublist.refl _
  · exact List.nil_sublist _

end Fragment

/-- The tokens kept around the bracket, and the one that opens it. -/
def Frame.storedTokens (frame : Frame) : List Token := frame.outer.storedTokens ++ [frame.opening]

theorem Frame.storedTokens_close (frame : Frame) (body : Expression) :
    (frame.close body).storedTokens = frame.storedTokens ++ body.storedTokens := by
  rw [close, Fragment.storedTokens_push, Expression.storedTokens_enclosed, storedTokens, List.append_assoc]
  rfl

/-- The tokens kept in the productions that events complete. -/
def completedTokens (events : List Event) : List Token := (productionsOf events).flatMap Production.storedTokens

theorem completedTokens_append (first second : List Event) :
    completedTokens (first ++ second) = completedTokens first ++ completedTokens second := by
  rw [completedTokens, productionsOf_append, List.flatMap_append, completedTokens, completedTokens]

theorem completedTokens_of_productionsOf_eq_nil {events : List Event} (hnone : productionsOf events = []) :
    completedTokens events = [] := by
  rw [completedTokens, hnone, List.flatMap_nil]

namespace Phase

/-- The tokens kept in what has been read of the production, outer brackets first. -/
def storedTokens : Phase → List Token
  | .between => []
  | .named name | .defining name => [name]
  | .within name frames fragment => name :: (frames.reverse.flatMap Frame.storedTokens ++ fragment.storedTokens)

variable (name token stop : Token) (frames : List Frame) (frame : Frame) (fragment : Fragment)

theorem storedTokens_within_cons :
    (within name (frame :: frames) fragment).storedTokens =
      name :: (frames.reverse.flatMap Frame.storedTokens ++ (frame.storedTokens ++ fragment.storedTokens)) := by
  rw [storedTokens, List.reverse_cons, List.flatMap_append, List.flatMap_singleton, List.append_assoc]

/-- The token that ends an expression in brackets is added to it if it has no term. -/
theorem storedTokens_within_close :
    (within name frames (frame.close (fragment.expression token))).storedTokens =
      (within name (frame :: frames) fragment).storedTokens ++ fragment.missingToken token := by
  rw [storedTokens_within_cons, storedTokens, Frame.storedTokens_close, Fragment.storedTokens_expression,
    List.cons_append, List.append_assoc, List.append_assoc]

/-! ### Steps within an expression -/

/-- A step leaves these tokens in what has been read of the production, or in the production if it completes it. -/
inductive Keeps (name : Token) (kept : List Token) : Phase × List Event → Prop where
  | reads {frames : List Frame} {fragment : Fragment} {events : List Event} (hnone : productionsOf events = [])
      (hkept : (within name frames fragment).storedTokens = kept) : Keeps name kept (within name frames fragment, events)
  | completes {expression : Expression} {events : List Event} (hone : productionsOf events = [⟨name, some expression⟩])
      (hkept : name :: expression.storedTokens = kept) : Keeps name kept (between, events)

variable {name} in
theorem Keeps.completedTokens_append {kept : List Token} {result : Phase × List Event}
    (hkeeps : Keeps name kept result) :
    completedTokens result.2 ++ result.1.storedTokens = kept := by
  cases hkeeps with
  | reads hnone hkept => rw [completedTokens_of_productionsOf_eq_nil hnone, List.nil_append, hkept]
  | completes hone hkept =>
    rw [completedTokens, hone, List.flatMap_singleton, ← hkept]
    exact List.append_nil _

theorem keeps_closeProduction :
    Keeps name ((within name [] fragment).storedTokens ++ fragment.missingToken token)
      (between, closeProduction name fragment token) := by
  refine .completes productionsOf_closeProduction ?_
  rw [Fragment.storedTokens_expression]
  rfl

/-- The token of a step is added, unless it ends an alternative that has a term. -/
theorem exists_keeps_stepExpression :
    ∃ added, (added = [token] ∨ added = [] ∧ fragment.terms ≠ []) ∧
      Keeps name ((within name frames fragment).storedTokens ++ added) (stepExpression name frames fragment token) := by
  have hmissing : fragment.missingToken token = [token] ∨ fragment.missingToken token = [] ∧ fragment.terms ≠ [] := by
    rw [Fragment.missingToken]
    cases fragment.terms <;> simp
  rcases token.kind.expression_cases with hkind | hkind | ⟨bracket, hkind⟩ | hkind | hends
  · refine ⟨[token], .inl rfl, ?_⟩
    rw [stepExpression_nonTerminal hkind]
    refine .reads rfl ?_
    rw [storedTokens, Fragment.storedTokens_push, ← List.append_assoc]
    rfl
  · refine ⟨[token], .inl rfl, ?_⟩
    rw [stepExpression_terminal hkind]
    refine .reads rfl ?_
    rw [storedTokens, Fragment.storedTokens_push, ← List.append_assoc]
    rfl
  · refine ⟨[token], .inl rfl, ?_⟩
    rw [stepExpression_opening hkind]
    refine .reads rfl ?_
    have hempty : Fragment.empty.storedTokens = [] := rfl
    rw [storedTokens_within_cons, Frame.storedTokens, storedTokens, hempty, List.append_nil, List.cons_append,
      List.append_assoc]
  · refine ⟨_, hmissing, ?_⟩
    rw [stepExpression_bar hkind]
    refine .reads (Fragment.productionsOf_events fragment token) ?_
    rw [storedTokens, storedTokens, Fragment.storedTokens_nextBranch, ← List.append_assoc]
    rfl
  · refine ⟨_, hmissing, ?_⟩
    cases frames with
    | nil =>
      rw [stepExpression_closeProduction hends]
      exact keeps_closeProduction name token fragment
    | cons frame frames =>
      rw [stepExpression_closeBracket hends]
      exact .reads productionsOf_closeBracket (storedTokens_within_close name token frames frame fragment)

theorem sublist_stepExpression :
    (completedTokens (stepExpression name frames fragment token).2 ++
      (stepExpression name frames fragment token).1.storedTokens).Sublist
        ((within name frames fragment).storedTokens ++ [token]) := by
  obtain ⟨added, hadded, hkeeps⟩ := exists_keeps_stepExpression name token frames fragment
  rw [hkeeps.completedTokens_append]
  apply List.Sublist.append_left
  rcases hadded with rfl | ⟨rfl, _⟩
  · exact List.Sublist.refl _
  · exact List.nil_sublist _

theorem sublist_step (phase : Phase) :
    (completedTokens (phase.step token).2 ++ (phase.step token).1.storedTokens).Sublist
      (phase.storedTokens ++ [token]) := by
  cases phase with
  | between =>
    rw [step, completedTokens_of_productionsOf_eq_nil (Kind.productionsOf_mismatch _ _)]
    exact List.Sublist.refl _
  | named name =>
    rw [step, completedTokens_of_productionsOf_eq_nil (Kind.productionsOf_mismatch _ _)]
    exact List.sublist_append_left _ _
  | defining name =>
    by_cases hkind : token.kind = .terminator
    · rw [step_defining_terminator hkind]
      exact List.sublist_append_left _ _
    · rw [step_defining hkind]
      exact sublist_stepExpression name token [] .empty
  | within name frames fragment => exact sublist_stepExpression name token frames fragment

/-! ### The end of input -/

/-- By induction on the open brackets. Once the innermost one has a term, so have those around it. -/
theorem exists_finishExpression_keeps :
    ∃ expression, productionsOf (finishExpression name frames fragment stop) = [⟨name, some expression⟩] ∧
      name :: expression.storedTokens = (within name frames fragment).storedTokens ++ fragment.missingToken stop := by
  induction frames generalizing fragment with
  | nil =>
    refine ⟨fragment.expression stop, productionsOf_closeProduction, ?_⟩
    rw [Fragment.storedTokens_expression]
    rfl
  | cons frame frames ih =>
    obtain ⟨expression, hone, hkept⟩ := ih (frame.close (fragment.expression stop))
    have hterm : (frame.close (fragment.expression stop)).missingToken stop = [] := rfl
    refine ⟨expression, ?_, ?_⟩
    · rw [finishExpression, productionsOf_append, productionsOf_closeBracket, hone, List.nil_append]
    · rw [hkept, hterm, List.append_nil, storedTokens_within_close]

theorem sublist_finish (phase : Phase) :
    (completedTokens (phase.finish stop)).Sublist (phase.storedTokens ++ [stop]) := by
  have hexpression (name : Token) (frames : List Frame) (fragment : Fragment) :
      (completedTokens (finishExpression name frames fragment stop)).Sublist
        ((within name frames fragment).storedTokens ++ [stop]) := by
    obtain ⟨expression, hone, hkept⟩ := exists_finishExpression_keeps name stop frames fragment
    rw [completedTokens, hone, List.flatMap_singleton, Production.storedTokens, Option.elim_some, hkept]
    exact (fragment.missingToken_sublist stop).append_left _
  cases phase with
  | between => exact List.nil_sublist _
  | named name =>
    rw [finish, completedTokens_append, completedTokens_of_productionsOf_eq_nil (Kind.productionsOf_mismatch _ _)]
    exact hexpression name [] .empty
  | defining name => exact hexpression name [] .empty
  | within name frames fragment => exact hexpression name frames fragment

/-! ### Runs -/

/-- The productions of a run keep its tokens in their order, each at most once. -/
theorem sublist_outcome (phase : Phase) (tokens : List Token) :
    (completedTokens (phase.outcome tokens stop)).Sublist (phase.storedTokens ++ (tokens ++ [stop])) := by
  induction tokens generalizing phase with
  | nil => exact sublist_finish stop phase
  | cons token rest ih =>
    have hstep := (sublist_step token phase).append_right (rest ++ [stop])
    have hrest := (ih (phase.step token).1).append_left (completedTokens (phase.step token).2)
    rw [outcome_cons, completedTokens_append]
    rw [List.append_assoc, List.append_assoc] at hstep
    exact hrest.trans hstep

end Phase

/-! ### The first token of a right-hand side -/

/-- The right-hand side, if there is one, begins with the second token after the name, or with the last
token if that comes before it. -/
def Production.Leads (last : Nat) (production : Production) : Prop :=
  ∀ expression, production.expression = some expression →
    ∃ first rest, expression.storedTokens = first :: rest ∧ first.index = min (production.name.index + 2) last

namespace Phase

/-- The next token is as far from the name as the phase says. A right-hand side begins with the second
token after the name. -/
def Aligned (next : Nat) : Phase → Prop
  | .between => True
  | .named name => name.index + 1 = next
  | .defining name => name.index + 2 = next
  | .within name frames fragment => name.index + 2 < next ∧
      ∃ first rest, (within name frames fragment).storedTokens = name :: first :: rest ∧ first.index = name.index + 2

variable {name token stop first : Token} {rest : List Token} {phase : Phase} {next last : Nat}

theorem Keeps.aligned {result : Phase × List Event} (hkeeps : Keeps name (name :: first :: rest) result)
    (hfirst : first.index = name.index + 2) (hnext : name.index + 2 < next) (hlast : name.index + 2 ≤ last) :
    result.1.Aligned next ∧ ∀ production ∈ productionsOf result.2, production.Leads last := by
  cases hkeeps with
  | reads hnone hkept =>
    refine ⟨⟨hnext, first, rest, hkept, hfirst⟩, ?_⟩
    rw [hnone]
    exact List.forall_mem_nil _
  | completes hone hkept =>
    refine ⟨trivial, ?_⟩
    rw [hone]
    refine List.forall_mem_singleton.2 fun expression hexpression => ⟨first, rest, ?_, ?_⟩
    · rw [← Option.some.inj hexpression]
      exact (List.cons.inj hkept).2
    · rw [hfirst, Nat.min_eq_left hlast]

theorem Aligned.step (haligned : phase.Aligned token.index) (hlast : token.index < last) :
    (phase.step token).1.Aligned (token.index + 1) ∧
      ∀ production ∈ productionsOf (phase.step token).2, production.Leads last := by
  cases phase with
  | between =>
    refine ⟨rfl, ?_⟩
    rw [Phase.step, Kind.productionsOf_mismatch]
    exact List.forall_mem_nil _
  | named name =>
    have hindex : name.index + 1 = token.index := haligned
    have hnext : name.index + 2 = token.index + 1 := congrArg (· + 1) hindex
    refine ⟨hnext, ?_⟩
    rw [Phase.step, Kind.productionsOf_mismatch]
    exact List.forall_mem_nil _
  | defining name =>
    have hindex : name.index + 2 = token.index := haligned
    by_cases hkind : token.kind = .terminator
    · rw [step_defining_terminator hkind]
      refine ⟨trivial, List.forall_mem_singleton.2 ?_⟩
      exact fun expression hnone => absurd hnone.symm (Option.some_ne_none expression)
    · rw [step_defining hkind]
      obtain ⟨added, hadded, hkeeps⟩ := exists_keeps_stepExpression name token [] .empty
      -- nothing has been read of the right-hand side, so the token is not left out
      obtain rfl : added = [token] := hadded.resolve_right fun hnone => hnone.2 rfl
      exact hkeeps.aligned hindex.symm (by omega) (by omega)
  | within name frames fragment =>
    obtain ⟨hless, first, rest, hstored, hfirst⟩ := haligned
    obtain ⟨added, _, hkeeps⟩ := exists_keeps_stepExpression name token frames fragment
    rw [hstored] at hkeeps
    exact hkeeps.aligned hfirst (by omega) (by omega)

theorem Aligned.finish (haligned : phase.Aligned stop.index) :
    ∀ production ∈ productionsOf (phase.finish stop), production.Leads stop.index := by
  have hexpression (name : Token) (frames : List Frame) (fragment : Fragment) (first : Token) (rest : List Token)
      (hstored : (within name frames fragment).storedTokens ++ fragment.missingToken stop = name :: first :: rest)
      (hfirst : first.index = min (name.index + 2) stop.index) :
      ∀ production ∈ productionsOf (finishExpression name frames fragment stop), production.Leads stop.index := by
    obtain ⟨expression, hone, hkept⟩ := exists_finishExpression_keeps name stop frames fragment
    rw [hstored] at hkept
    rw [hone]
    refine List.forall_mem_singleton.2 fun other hother => ⟨first, rest, ?_, hfirst⟩
    rw [← Option.some.inj hother]
    exact (List.cons.inj hkept).2
  cases phase with
  | between => exact List.forall_mem_nil _
  | named name =>
    have hindex : name.index + 1 = stop.index := haligned
    rw [Phase.finish, productionsOf_append, Kind.productionsOf_mismatch, List.nil_append]
    exact hexpression name [] .empty stop [] rfl (by omega)
  | defining name =>
    have hindex : name.index + 2 = stop.index := haligned
    exact hexpression name [] .empty stop [] rfl (by omega)
  | within name frames fragment =>
    obtain ⟨hless, first, rest, hstored, hfirst⟩ := haligned
    exact hexpression name frames fragment first _ (by rw [hstored]; rfl) (by omega)

/-- By induction on the tokens, which are next to each other. -/
theorem Aligned.outcome {tokens : List Token} (haligned : phase.Aligned next)
    (htokens : tokens.map (·.index) = List.range' next tokens.length) (hstop : stop.index = next + tokens.length) :
    ∀ production ∈ productionsOf (phase.outcome tokens stop), production.Leads stop.index := by
  induction tokens generalizing phase next with
  | nil =>
    have hnext : stop.index = next := hstop
    exact Aligned.finish (hnext ▸ haligned)
  | cons token rest ih =>
    rw [List.map_cons, List.length_cons, List.range'_succ] at htokens
    obtain ⟨hindex, hrest⟩ := List.cons.inj htokens
    rw [List.length_cons] at hstop
    subst hindex
    obtain ⟨hnext, hnow⟩ := haligned.step (show token.index < stop.index by omega)
    rw [outcome_cons, productionsOf_append]
    intro production hmem
    rcases List.mem_append.1 hmem with hmem | hmem
    · exact hnow production hmem
    · exact ih hnext hrest (by omega) production hmem

end Phase

/-! ### The tokens of a source -/

namespace Production

/-- Every token of the first production comes before every token of the second one. -/
def Precedes (first second : Production) : Prop :=
  ∀ token ∈ first.storedTokens, ∀ later ∈ second.storedTokens, token.index < later.index

/-- The production keeps tokens of the list in their order. Its right-hand side begins with the second
token after the name, or with the end of input if that comes first, and only a missing term can be
where the input ends. -/
structure DrawnFrom (tokens : List Token) (stop : Token) (production : Production) : Prop where
  getElem?_index : ∀ token ∈ production.storedTokens, tokens[token.index]? = some token
  pairwise_index : production.storedTokens.Pairwise (·.index < ·.index)
  name_ne : production.name ≠ stop
  eq_malformed : ∀ expression, production.expression = some expression → ∀ part ∈ expression.parts,
    part.ownToken? = some stop → ∃ problem, part = .malformed stop problem
  index?_eq : ∀ expression, production.expression = some expression →
    expression.index? = some (min (production.name.index + 2) stop.index) ∧
      ∀ token ∈ expression.storedTokens, min (production.name.index + 2) stop.index ≤ token.index

end Production

namespace Reading

variable {source : List UInt8} {read : List Token} {stop : Token}

theorem getElem?_index_scan {token : Token} (hmem : token ∈ scan source) :
    (scan source)[token.index]? = some token := by
  obtain ⟨place, hplace, rfl⟩ := List.getElem_of_mem hmem
  rw [index_getElem_scan hplace]
  exact List.getElem?_eq_getElem hplace

theorem indices_of_scan_eq (hscan : scan source = read ++ [stop]) :
    read.map (·.index) = List.range' 0 read.length ∧ stop.index = read.length := by
  have hindex := map_index_scan source
  rw [hscan, List.map_append, List.length_append, List.length_singleton, List.range_succ, List.map_singleton] at hindex
  obtain ⟨hread, hstop⟩ := List.append_inj' hindex rfl
  exact ⟨by rw [hread, List.range_eq_range'], List.singleton_inj.1 hstop⟩

/-- The productions of a source keep its tokens in their order, each at most once. -/
theorem sublist_scan (source : List UInt8) :
    ((ofSource source).definitions.flatMap Production.storedTokens).Sublist (scan source) := by
  obtain ⟨read, stop, hscan, hread, hstop⟩ := exists_scan_eq_concat source
  have hstream := ofTokens_concat_stop hread hstop
  have hkept : (completedTokens (TokenStream.events ⟨read, stop, []⟩)).Sublist (read ++ [stop]) :=
    Phase.sublist_outcome stop .between read
  rw [ofSource, definitions_ofTokens, hscan, hstream]
  exact ((sublist_definitions .empty _).flatMap Production.storedTokens).trans hkept

theorem leads_of_mem_definitions (hscan : scan source = read ++ [stop])
    (hread : ∀ token ∈ read, token.isEndOfInput = false) (hstop : stop.isEndOfInput = true) :
    ∀ production ∈ (ofSource source).definitions, production.Leads stop.index := by
  obtain ⟨hindices, hlast⟩ := indices_of_scan_eq hscan
  have hbetween : Phase.between.Aligned 0 := trivial
  have hall := hbetween.outcome hindices (by rw [hlast, Nat.zero_add])
  rw [ofSource, definitions_ofTokens, hscan, ofTokens_concat_stop hread hstop]
  intro production hmem
  exact hall production ((sublist_definitions .empty _).subset hmem)

theorem pairwise_precedes_definitions (source : List UInt8) :
    (ofSource source).definitions.Pairwise Production.Precedes := by
  have hordered := (pairwise_index_scan source).sublist (sublist_scan source)
  rw [List.pairwise_flatMap] at hordered
  exact hordered.2

/-- Only a missing term can keep the end of input, since every other part keeps a token of its own kind. -/
theorem eq_malformed_of_ownToken? {level : Expression.Level} {part : Expression} (hkind : stop.kind = .endOfInput)
    (hshaped : part.Shaped (.scanned True) level) (hown : part.ownToken? = some stop) :
    ∃ problem, part = .malformed stop problem := by
  cases hshaped with
  | name htoken =>
    obtain rfl := Option.some.inj hown
    have hname := htoken.1
    rw [hkind] at hname
    contradiction
  | literal htoken =>
    obtain rfl := Option.some.inj hown
    have hliteral := htoken.1
    rw [hkind] at hliteral
    contradiction
  | enclosed hopening _ =>
    obtain rfl := Option.some.inj hown
    have hbracket := hopening.1
    rw [hkind] at hbracket
    contradiction
  | @malformed _ found problem _ _ =>
    obtain rfl := Option.some.inj hown
    exact ⟨problem, rfl⟩
  | sequence => contradiction
  | alternative => contradiction

theorem drawnFrom_of_mem_productions (hscan : scan source = read ++ [stop])
    (hread : ∀ token ∈ read, token.isEndOfInput = false) (hstop : stop.isEndOfInput = true) :
    ∀ production ∈ (ofSource source).grammar.productions, production.DrawnFrom (scan source) stop := by
  intro production hmem
  have hkind : stop.kind = .endOfInput := eq_of_beq hstop
  obtain ⟨hname, hshaped⟩ := shaped_of_mem_productions hmem
  have hdefined : production ∈ (ofSource source).definitions := (productions_ofTokens_perm (scan source)).subset hmem
  have hstored : production.storedTokens.Sublist (scan source) := by
    have hblock := (List.singleton_sublist.2 hdefined).flatMap Production.storedTokens
    rw [List.flatMap_singleton] at hblock
    exact hblock.trans (sublist_scan source)
  have hordered : production.storedTokens.Pairwise (·.index < ·.index) := (pairwise_index_scan source).sublist hstored
  refine ⟨fun token htoken => getElem?_index_scan (hstored.subset htoken), hordered, ?_, ?_, ?_⟩
  · intro heq
    rw [heq, hkind] at hname
    contradiction
  · intro expression hexpression part hpart hown
    obtain ⟨level, hpartShaped⟩ := (hshaped.expression expression hexpression).of_mem_parts hpart
    exact eq_malformed_of_ownToken? hkind hpartShaped hown
  · intro expression hexpression
    obtain ⟨first, rest, hfirst, hcons⟩ := (hshaped.expression expression hexpression).exists_storedTokens_eq_cons
    obtain ⟨_, _, hleading, hindex⟩ :=
      leads_of_mem_definitions hscan hread hstop production hdefined expression hexpression
    obtain ⟨rfl, _⟩ := List.cons.inj (hcons.symm.trans hleading)
    refine ⟨by rw [Expression.index?, hfirst, Option.map_some, hindex], ?_⟩
    rw [Production.storedTokens, hexpression, Option.elim_some, hcons] at hordered
    have hlater := (List.pairwise_cons.1 (List.pairwise_cons.1 hordered).2).1
    rw [hcons, ← hindex]
    exact List.forall_mem_cons.2 ⟨Nat.le_refl _, fun token htoken => Nat.le_of_lt (hlater token htoken)⟩

/-- The productions of a grammar keep tokens of the source, each production in their order and none of
them a token that another one keeps: all tokens of one production come before all tokens of the other. -/
theorem storedTokens_ofSource (source : List UInt8) :
    ∃ stop, (scan source)[stop.index]? = some stop ∧
      (∀ token, token ∈ scan source ∧ token.kind = .endOfInput ↔ token = stop) ∧
      (∀ production ∈ (ofSource source).grammar.productions, production.DrawnFrom (scan source) stop) ∧
      ((ofSource source).grammar.productions.Pairwise fun first second => first.Precedes second ∨ second.Precedes first) ∧
      ((ofSource source).grammar.productions.flatMap Production.storedTokens).Nodup := by
  obtain ⟨read, stop, hscan, hread, hstop⟩ := exists_scan_eq_concat source
  have hperm : (ofSource source).grammar.productions.Perm (ofSource source).definitions :=
    productions_ofTokens_perm (scan source)
  have hmem : stop ∈ scan source := hscan ▸ List.mem_append_right read (List.mem_singleton_self stop)
  refine ⟨stop, getElem?_index_scan hmem, ?_, drawnFrom_of_mem_productions hscan hread hstop, ?_, ?_⟩
  · intro token
    rw [hscan, List.mem_append, List.mem_singleton]
    constructor
    · intro ⟨hmem, hkind⟩
      refine hmem.resolve_left fun hinside => ?_
      have hopen := hread token hinside
      rw [Token.isEndOfInput, hkind] at hopen
      contradiction
    · intro heq
      exact ⟨.inr heq, heq ▸ eq_of_beq hstop⟩
  · apply (hperm.pairwise_iff Or.symm).2
    exact (pairwise_precedes_definitions source).imp .inl
  · have hkept : ((ofSource source).definitions.flatMap Production.storedTokens).Nodup := by
      apply ((pairwise_index_scan source).sublist (sublist_scan source)).imp
      intro token later hless heq
      exact Nat.ne_of_lt hless (congrArg Token.index heq)
    exact ((hperm.flatMap_right _).nodup_iff).2 hkept

/-- The end of input stands for the term that is missing in the group. -/
theorem storedTokens_ofSource_openGroup :
    let source := Utf8.encode "b = B | .\na = [ c ("
    (ofSource source).grammar.productions.map (fun production => production.storedTokens.map (·.index)) =
        [[5, 7, 8, 9, 10], [0, 2, 4]] ∧
      ∀ production ∈ (ofSource source).grammar.productions,
        production.DrawnFrom (scan source) ⟨.endOfInput, [], ⟨2, 10⟩, 10⟩ := by
  intro source
  obtain ⟨stop, _, hstop, hdrawn, _, _⟩ := storedTokens_ofSource source
  have heq : ⟨.endOfInput, [], ⟨2, 10⟩, 10⟩ = stop := (hstop _).1 (by decide +kernel)
  rw [heq]
  exact ⟨by decide +kernel, hdrawn⟩

end Reading

end GrammarCheck
