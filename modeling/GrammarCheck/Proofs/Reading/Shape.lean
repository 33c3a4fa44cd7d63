import GrammarCheck.Proofs.Reading.Acceptance
import GrammarCheck.Proofs.Reading.Definitions
import GrammarCheck.Proofs.Syntax.Parts

/-!
# The shape of what is read

Whatever the tokens are, a production that is read has the shape of one without problems, but for
terms that were missing. Each of those has been reported. Every step keeps the shape of what has been
read so far, and the end of input completes what is left of it.
-/

namespace GrammarCheck

variable {leaves : Expression.Leaves}

/-- The leaves may be any of the tokens that fit, and missing terms that the events report. -/
structure Expression.Leaves.AdmitsAll (leaves : Expression.Leaves) (tokens : List Token) (events : List Event) : Prop where
  heading : ∀ token ∈ tokens, leaves.heading token
  admits : ∀ token ∈ tokens, leaves.Admits token
  malformed : ∀ token ∈ tokens, ¬token.kind.BeginsTerm → .problem (.emptySequenceBefore token) ∈ events →
    leaves.malformed token (.emptySequenceBefore token)

namespace Phase

variable {name stop : Token} {frames : List Frame} {fragment : Fragment} {phase : Phase}

/-! ### The end of input -/

/-- By induction on the open brackets, each of which becomes a term of what is around it. -/
theorem Shaped.finishExpression (hwithin : (within name frames fragment).Shaped leaves)
    (hmissing : .problem (.emptySequenceBefore stop) ∈ finishExpression name frames fragment stop →
      leaves.malformed stop (.emptySequenceBefore stop)) :
    ∀ production ∈ productionsOf (finishExpression name frames fragment stop), production.Shaped leaves := by
  induction frames generalizing fragment with
  | nil =>
    obtain ⟨hname, _, hfragment⟩ := hwithin
    have hexpression : (fragment.expression stop).Shaped leaves .whole := hfragment.expression fun hterms =>
      hmissing (List.mem_append_left _ (List.mem_append_left _ (Fragment.problem_mem_events hterms)))
    intro production hmem
    rw [Phase.finishExpression, productionsOf_closeProduction] at hmem
    obtain rfl := List.mem_singleton.1 hmem
    exact ⟨hname, fun expression heq => Option.some.inj heq ▸ hexpression⟩
  | cons frame frames ih =>
    obtain ⟨hname, hall, hfragment⟩ := hwithin
    obtain ⟨hframe, hframes⟩ := List.forall_mem_cons.1 hall
    have hbody : (fragment.expression stop).Shaped leaves .whole := hfragment.expression fun hterms =>
      hmissing (List.mem_append_left _ (List.mem_append_left _ (Fragment.problem_mem_events hterms)))
    rw [Phase.finishExpression, productionsOf_append, productionsOf_closeBracket, List.nil_append]
    apply ih
    · exact ⟨hname, hframes, hframe.outer.push (.enclosed hframe.opening hbody)⟩
    · exact fun hmem => hmissing (List.mem_append_right _ hmem)

theorem Shaped.finish (hphase : phase.Shaped leaves)
    (hmissing : .problem (.emptySequenceBefore stop) ∈ phase.finish stop →
      leaves.malformed stop (.emptySequenceBefore stop)) :
    ∀ production ∈ productionsOf (phase.finish stop), production.Shaped leaves := by
  cases phase with
  | between => simp [Phase.finish, productionsOf]
  | named name =>
    rw [Phase.finish, productionsOf_append, Kind.productionsOf_mismatch, List.nil_append]
    apply Shaped.finishExpression ⟨hphase, by simp, Fragment.shaped_empty⟩
    exact fun hmem => hmissing (List.mem_append_right _ hmem)
  | defining name => exact Shaped.finishExpression ⟨hphase, by simp, Fragment.shaped_empty⟩ hmissing
  | within name frames fragment => exact Shaped.finishExpression hphase hmissing

/-! ### The whole run -/

theorem Shaped.outcome {tokens : List Token} {events : List Event} (hphase : phase.Shaped leaves)
    (hstop : ¬stop.kind.BeginsTerm) (hall : leaves.AdmitsAll (stop :: tokens) events)
    (hevents : phase.outcome tokens stop ⊆ events) :
    ∀ production ∈ productionsOf (phase.outcome tokens stop), production.Shaped leaves := by
  induction tokens generalizing phase with
  | nil =>
    apply hphase.finish
    exact fun hmem => hall.malformed stop List.mem_cons_self hstop (hevents hmem)
  | cons token rest ih =>
    rw [outcome_cons] at hevents ⊢
    have htoken : token ∈ stop :: token :: rest := List.mem_cons_of_mem stop List.mem_cons_self
    have hthen : stop :: rest ⊆ stop :: token :: rest :=
      List.cons_subset_cons stop (List.subset_cons_self token rest)
    obtain ⟨hnext, hproductions⟩ := hphase.step (hall.admits token htoken) (fun _ => hall.heading token htoken)
      fun hmem => hall.malformed token htoken (arisesAt_of_mem_step hmem).not_beginsTerm
        (hevents (List.mem_append_left _ hmem))
    have hrest : leaves.AdmitsAll (stop :: rest) events :=
      ⟨fun other hother => hall.heading other (hthen hother), fun other hother => hall.admits other (hthen hother),
        fun other hother => hall.malformed other (hthen hother)⟩
    intro production hmem
    rw [productionsOf_append] at hmem
    rcases List.mem_append.1 hmem with hmem | hmem
    · exact hproductions production hmem
    · exact ih hnext hrest (fun event hevent => hevents (List.mem_append_right _ hevent)) production hmem

end Phase

theorem Kind.not_beginsTerm_endOfInput : ¬Kind.endOfInput.BeginsTerm := Kind.not_beginsTerm_of_endsExpression rfl

theorem TokenStream.not_beginsTerm_stop (tokens : List Token) : ¬(ofTokens tokens).stop.kind.BeginsTerm := by
  rw [kind_stop_ofTokens]
  exact Kind.not_beginsTerm_endOfInput

namespace Reading

/-- The shape of a production depends on what the leaves may be among the tokens up to the end of input. -/
theorem shaped_of_find? {tokens : List Token}
    (hall : leaves.AdmitsAll ((TokenStream.ofTokens tokens).stop :: (TokenStream.ofTokens tokens).body)
      (TokenStream.ofTokens tokens).events)
    {key : String} {production : Production} (hfind : (ofTokens tokens).grammar.find? key = some production) :
    key = production.name.spelling ∧ production.name.kind = .nonTerminal ∧ production.Shaped leaves := by
  obtain ⟨hmem, hkey⟩ := find?_ofTokens_eq_some_iff.1 hfind
  have hproduction : production ∈ productionsOf (TokenStream.ofTokens tokens).events :=
    (sublist_definitions .empty _).subset hmem
  have hbetween : Phase.between.Shaped leaves := trivial
  exact ⟨hkey.symm, kind_of_mem_definitions production hmem,
    hbetween.outcome (TokenStream.not_beginsTerm_stop tokens) hall (List.Subset.refl _) production hproduction⟩

end Reading

/-! ### Regular expressions of a reading -/

namespace Expression

/-- The expression is as reading leaves each part of a right-hand side. Tokens are of the kinds that
belong in their places. Alternatives and sequences have at least two parts; no alternative stands
directly in either of them, and no sequence or missing term directly in a sequence. A missing term was
reported, at a token that begins no term. -/
def IsRegular (diagnostics : List Diagnostic) : Expression → Prop
  | .alternative branches => 2 ≤ branches.length ∧ ∀ branch ∈ branches, ∀ inner, branch ≠ .alternative inner
  | .sequence terms => 2 ≤ terms.length ∧ ∀ term ∈ terms,
      (∀ inner, term ≠ .alternative inner) ∧ (∀ inner, term ≠ .sequence inner) ∧
        ∀ found problem, term ≠ .malformed found problem
  | .name token => token.kind = .nonTerminal
  | .literal token => token.kind = .terminal
  | .enclosed bracket opening _ => opening.kind = .opening bracket
  | .malformed found problem =>
    ¬found.kind.BeginsTerm ∧ problem = .emptySequenceBefore found ∧ problem ∈ diagnostics

/-- Tokens that fit, and missing terms that the diagnostics report. The name of the production may be
any token. -/
def Leaves.reported (diagnostics : List Diagnostic) : Leaves where
  heading _ := True
  name token := token.kind = .nonTerminal
  literal token := token.kind = .terminal
  opening bracket token := token.kind = .opening bracket
  malformed found problem :=
    ¬found.kind.BeginsTerm ∧ problem = .emptySequenceBefore found ∧ problem ∈ diagnostics

theorem Shaped.isRegular {diagnostics : List Diagnostic} {level : Level} {expression : Expression}
    (hshaped : expression.Shaped (.reported diagnostics) level) : expression.IsRegular diagnostics := by
  cases hshaped with
  | name htoken => exact htoken
  | literal htoken => exact htoken
  | enclosed hopening _ => exact hopening
  | malformed _ hproblem => exact hproblem
  | sequence _ hlength hterms =>
    refine ⟨hlength, ?_⟩
    intro term hterm
    cases hterms term hterm with
    | malformed hlevel => contradiction
    | sequence hlevel => contradiction
    | _ => simp
  | alternative hlength hbranches =>
    refine ⟨hlength, ?_⟩
    intro branch hbranch
    cases hbranches branch hbranch <;> simp

end Expression

namespace Reading

/-- Each production is under its own name, a non-terminal, and all parts of its right-hand side are
regular. So each of them has a leftmost token with its index and line. -/
theorem isRegular_of_mem_parts {tokens : List Token} {key : String} {production : Production}
    (hfind : (ofTokens tokens).grammar.find? key = some production) :
    key = production.name.spelling ∧ production.name.kind = .nonTerminal ∧
      ∀ expression, production.expression = some expression → ∀ part ∈ expression.parts,
        part.IsRegular (ofTokens tokens).diagnostics ∧
          ∃ first, part.firstToken? = some first ∧ part.index? = some first.index ∧ part.line? = some first.line := by
  have hall : (Expression.Leaves.reported (ofTokens tokens).diagnostics).AdmitsAll
      ((TokenStream.ofTokens tokens).stop :: (TokenStream.ofTokens tokens).body) (TokenStream.ofTokens tokens).events := by
    refine ⟨fun _ _ => trivial, fun _ _ => ⟨id, id, fun _ => id⟩, ?_⟩
    exact fun token _ hkind hmem => ⟨hkind, rfl, List.mem_append_left _ (mem_diagnostics_of_mem hmem)⟩
  obtain ⟨hkey, hkind, hshaped⟩ := shaped_of_find? hall hfind
  refine ⟨hkey, hkind, ?_⟩
  intro expression hexpression part hpart
  obtain ⟨level, hpartShaped⟩ := (hshaped.expression expression hexpression).of_mem_parts hpart
  obtain ⟨first, hfirst⟩ := hpartShaped.exists_firstToken?
  exact ⟨hpartShaped.isRegular, first, hfirst, congrArg _ hfirst, congrArg _ hfirst⟩

/-- The tokens of `a = | b ( .` with the end of input. -/
def unclosedGroup : List Token :=
  [⟨.nonTerminal, [0x61], ⟨1, 1⟩, 0⟩, ⟨.equals, [], ⟨1, 3⟩, 1⟩, ⟨.bar, [], ⟨1, 5⟩, 2⟩,
   ⟨.nonTerminal, [0x62], ⟨1, 7⟩, 3⟩, ⟨.opening .group, [], ⟨1, 9⟩, 4⟩, ⟨.terminator, [], ⟨1, 11⟩, 5⟩,
   ⟨.endOfInput, [], ⟨1, 12⟩, 6⟩]

theorem isRegular_unclosedGroup :
    let missing (found : Token) : Expression := .malformed found (.emptySequenceBefore found)
    let expression : Expression := .alternative [missing ⟨.bar, [], ⟨1, 5⟩, 2⟩,
      .sequence [.name ⟨.nonTerminal, [0x62], ⟨1, 7⟩, 3⟩,
        .enclosed .group ⟨.opening .group, [], ⟨1, 9⟩, 4⟩ (missing ⟨.terminator, [], ⟨1, 11⟩, 5⟩)]]
    (ofTokens unclosedGroup).grammar.find? "a" =
        some ⟨⟨.nonTerminal, [0x61], ⟨1, 1⟩, 0⟩, some expression⟩ ∧
      (ofTokens unclosedGroup).diagnostics.length = 4 ∧
      ∀ part ∈ expression.parts, part.IsRegular (ofTokens unclosedGroup).diagnostics := by
  intro missing expression
  have hfind : (ofTokens unclosedGroup).grammar.find? "a" =
      some ⟨⟨.nonTerminal, [0x61], ⟨1, 1⟩, 0⟩, some expression⟩ := by decide
  obtain ⟨_, _, hparts⟩ := isRegular_of_mem_parts hfind
  exact ⟨hfind, by decide, fun part hpart => (hparts expression rfl part hpart).1⟩

end Reading

end GrammarCheck
