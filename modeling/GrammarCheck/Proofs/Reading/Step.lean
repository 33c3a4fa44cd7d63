import GrammarCheck.Proofs.Syntax.Tree
import GrammarCheck.Reading.Basic

/-!
# One step of the reader

What a token does within an expression depends on its kind in five ways: it is a name, it is a
literal, it opens a bracket, it separates alternatives, or it ends the expression. The lemmas here
say what each of the five does, when a step causes no problem, and that every step keeps the shape of
what has been read.
-/

namespace GrammarCheck

/-- Whether a token of the kind ends the expression it stands in. -/
def Kind.endsExpression : Kind → Bool
  | .nonTerminal | .terminal | .opening _ | .bar => false
  | .unknown | .closing _ | .endOfInput | .endOfLine | .equals | .terminator => true

theorem Kind.expression_cases (kind : Kind) :
    kind = .nonTerminal ∨ kind = .terminal ∨ (∃ bracket, kind = .opening bracket) ∨ kind = .bar ∨
      kind.endsExpression = true := by
  cases kind <;> simp [endsExpression]

def Clean (events : List Event) : Prop := ∀ problem, Event.problem problem ∉ events

def productionsOf (events : List Event) : List Production :=
  events.filterMap fun
    | .production production => some production
    | .problem _ => none

/-! ### Events without problems -/

theorem clean_nil : Clean [] := fun _ => List.not_mem_nil

theorem clean_append {first second : List Event} : Clean (first ++ second) ↔ Clean first ∧ Clean second := by
  unfold Clean
  simp only [List.mem_append, not_or, forall_and]

theorem clean_production (production : Production) : Clean [.production production] := by
  intro problem
  simp

theorem Kind.clean_mismatch {kind : Kind} {found : Token} : Clean (kind.mismatch found) ↔ found.kind = kind := by
  unfold mismatch Clean
  split
  · next hkind => simp [hkind]
  · next hkind => simp [hkind]

theorem Fragment.clean_events {fragment : Fragment} {found : Token} :
    Clean (fragment.events found) ↔ fragment.terms ≠ [] := by
  unfold Fragment.events sequenceProblems Clean
  cases fragment.terms <;> simp

theorem productionsOf_production (production : Production) : productionsOf [.production production] = [production] :=
  rfl

theorem productionsOf_append (first second : List Event) :
    productionsOf (first ++ second) = productionsOf first ++ productionsOf second :=
  List.filterMap_append

theorem Kind.productionsOf_mismatch (kind : Kind) (found : Token) : productionsOf (kind.mismatch found) = [] := by
  unfold mismatch
  split <;> rfl

theorem Fragment.productionsOf_events (fragment : Fragment) (found : Token) :
    productionsOf (fragment.events found) = [] := by
  unfold Fragment.events sequenceProblems
  split <;> rfl

theorem Clean.eq_productions {events : List Event} (hclean : Clean events) :
    events = (productionsOf events).map .production := by
  induction events with
  | nil => rfl
  | cons event rest ih =>
    have hrest := ih fun problem hmem => hclean problem (List.mem_cons_of_mem _ hmem)
    cases event with
    | problem problem => exact absurd List.mem_cons_self (hclean problem)
    | production production => simpa [productionsOf] using hrest

namespace Phase

variable {name token : Token} {frames : List Frame} {frame : Frame} {fragment : Fragment}

/-! ### The five effects within an expression -/

theorem stepExpression_nonTerminal (hkind : token.kind = .nonTerminal) :
    stepExpression name frames fragment token = (.within name frames (fragment.push (.name token)), []) := by
  unfold stepExpression
  rw [hkind]

theorem stepExpression_terminal (hkind : token.kind = .terminal) :
    stepExpression name frames fragment token = (.within name frames (fragment.push (.literal token)), []) := by
  unfold stepExpression
  rw [hkind]

theorem stepExpression_opening {bracket : Bracket} (hkind : token.kind = .opening bracket) :
    stepExpression name frames fragment token = (.within name (⟨bracket, token, fragment⟩ :: frames) .empty, []) := by
  unfold stepExpression
  rw [hkind]

theorem stepExpression_bar (hkind : token.kind = .bar) :
    stepExpression name frames fragment token =
      (.within name frames (fragment.nextBranch token), fragment.events token) := by
  unfold stepExpression
  rw [hkind]

theorem stepExpression_closeBracket (hends : token.kind.endsExpression = true) :
    stepExpression name (frame :: frames) fragment token =
      (.within name frames (frame.close (fragment.expression token)), closeBracket frame fragment token) := by
  unfold stepExpression
  generalize token.kind = kind at hends
  cases kind <;> first | rfl | simp [Kind.endsExpression] at hends

theorem stepExpression_closeProduction (hends : token.kind.endsExpression = true) :
    stepExpression name [] fragment token = (.between, closeProduction name fragment token) := by
  unfold stepExpression
  generalize token.kind = kind at hends
  cases kind <;> first | rfl | simp [Kind.endsExpression] at hends

theorem step_defining_terminator (hkind : token.kind = .terminator) :
    (defining name).step token = (.between, [.production ⟨name, none⟩]) :=
  if_pos hkind

theorem step_defining (hkind : token.kind ≠ .terminator) :
    (defining name).step token = stepExpression name [] .empty token :=
  if_neg hkind

theorem clean_closeBracket :
    Clean (closeBracket frame fragment token) ↔ fragment.terms ≠ [] ∧ token.kind = .closing frame.bracket := by
  rw [closeBracket, clean_append, Fragment.clean_events, Kind.clean_mismatch]

theorem clean_closeProduction :
    Clean (closeProduction name fragment token) ↔ fragment.terms ≠ [] ∧ token.kind = .terminator := by
  rw [closeProduction, clean_append, clean_append, Fragment.clean_events, Kind.clean_mismatch,
    and_iff_left (clean_production _)]

theorem productionsOf_closeBracket : productionsOf (closeBracket frame fragment token) = [] := by
  rw [closeBracket, productionsOf_append, Fragment.productionsOf_events, Kind.productionsOf_mismatch,
    List.append_nil]

theorem productionsOf_closeProduction :
    productionsOf (closeProduction name fragment token) = [⟨name, some (fragment.expression token)⟩] := by
  rw [closeProduction, productionsOf_append, productionsOf_append, Fragment.productionsOf_events,
    Kind.productionsOf_mismatch]
  rfl

/-- The end of input causes no problem between productions, and one everywhere else. -/
theorem clean_finish {phase : Phase} {stop : Token} (hstop : stop.kind = .endOfInput) :
    Clean (phase.finish stop) ↔ phase = .between := by
  have hexpression (name : Token) (frames : List Frame) (fragment : Fragment) :
      ¬Clean (finishExpression name frames fragment stop) := by
    intro hclean
    cases frames with
    | nil => simpa [hstop] using (clean_closeProduction.mp hclean).2
    | cons frame frames => simpa [hstop] using (clean_closeBracket.mp (clean_append.mp hclean).1).2
  cases phase with
  | between => simp [finish, clean_nil]
  | named name => simp [finish, clean_append, hexpression]
  | defining name => simp [finish, hexpression]
  | within name frames fragment => simp [finish, hexpression]

end Phase

/-! ### Shapes -/

variable {leaves : Expression.Leaves} {token : Token}

structure Expression.Leaves.Admits (leaves : Expression.Leaves) (token : Token) : Prop where
  name : token.kind = .nonTerminal → leaves.name token
  literal : token.kind = .terminal → leaves.literal token
  opening : ∀ bracket, token.kind = .opening bracket → leaves.opening bracket token

theorem Expression.Leaves.admits_fitting (token : Token) : Expression.Leaves.fitting.Admits token :=
  ⟨id, id, fun _ => id⟩

structure Fragment.Shaped (leaves : Expression.Leaves) (fragment : Fragment) : Prop where
  branches : ∀ branch ∈ fragment.branches, branch.Shaped leaves .branch
  terms : ∀ term ∈ fragment.terms, term.Shaped leaves .term

structure Frame.Shaped (leaves : Expression.Leaves) (frame : Frame) : Prop where
  opening : leaves.opening frame.bracket frame.opening
  outer : frame.outer.Shaped leaves

/-- What has been read in the phase has the shape that fits its place. -/
def Phase.Shaped (leaves : Expression.Leaves) : Phase → Prop
  | .between => True
  | .named name | .defining name => leaves.heading name
  | .within name frames fragment =>
    leaves.heading name ∧ (∀ frame ∈ frames, frame.Shaped leaves) ∧ fragment.Shaped leaves

namespace Fragment

variable {fragment : Fragment}

theorem shaped_empty : empty.Shaped leaves := ⟨by simp [empty], by simp [empty]⟩

theorem Shaped.push {term : Expression} (hfragment : fragment.Shaped leaves)
    (hterm : term.Shaped leaves .term) : (fragment.push term).Shaped leaves :=
  ⟨hfragment.branches, List.forall_mem_cons.mpr ⟨hterm, hfragment.terms⟩⟩

/-- An alternative without terms is malformed, and has to be allowed for. -/
theorem Shaped.sequence (hfragment : fragment.Shaped leaves)
    (hmissing : fragment.terms = [] → leaves.malformed token (.emptySequenceBefore token)) :
    (fragment.sequence token).Shaped leaves .branch := by
  obtain ⟨branches, terms⟩ := fragment
  match terms with
  | [] => exact .malformed (by decide) (hmissing rfl)
  | [term] => exact (hfragment.terms term (by simp)).branch_of_term
  | first :: second :: rest =>
    refine .sequence (by decide) (by simp) ?_
    intro term hterm
    exact hfragment.terms term (List.mem_reverse.mp hterm)

theorem Shaped.expression (hfragment : fragment.Shaped leaves)
    (hmissing : fragment.terms = [] → leaves.malformed token (.emptySequenceBefore token)) :
    (fragment.expression token).Shaped leaves .whole := by
  have hsequence := hfragment.sequence hmissing
  unfold Fragment.expression
  split
  · exact hsequence.whole_of_branch
  · next branches hbranches =>
    refine .alternative ?_ ?_
    · have hlength := List.length_pos_iff.mpr hbranches
      simp only [List.length_reverse, List.length_cons]
      omega
    · intro branch hbranch
      rcases List.mem_cons.mp (List.mem_reverse.mp hbranch) with rfl | hbranch
      · exact hsequence
      · exact hfragment.branches branch hbranch

theorem Shaped.nextBranch (hfragment : fragment.Shaped leaves)
    (hmissing : fragment.terms = [] → leaves.malformed token (.emptySequenceBefore token)) :
    (fragment.nextBranch token).Shaped leaves :=
  ⟨List.forall_mem_cons.mpr ⟨hfragment.sequence hmissing, hfragment.branches⟩, by simp [Fragment.nextBranch]⟩

theorem problem_mem_events (hterms : fragment.terms = []) :
    .problem (.emptySequenceBefore token) ∈ fragment.events token := by
  simp [Fragment.events, sequenceProblems, hterms]

end Fragment

namespace Phase

variable {name : Token} {frames : List Frame} {fragment : Fragment}

theorem Shaped.stepExpression (hwithin : (within name frames fragment).Shaped leaves) (hadmits : leaves.Admits token)
    (hmissing : .problem (.emptySequenceBefore token) ∈ (stepExpression name frames fragment token).2 →
      leaves.malformed token (.emptySequenceBefore token)) :
    (stepExpression name frames fragment token).1.Shaped leaves ∧
      ∀ production ∈ productionsOf (stepExpression name frames fragment token).2, production.Shaped leaves := by
  obtain ⟨hname, hframes, hfragment⟩ := hwithin
  rcases token.kind.expression_cases with hkind | hkind | ⟨bracket, hkind⟩ | hkind | hends
  · rw [stepExpression_nonTerminal hkind]
    exact ⟨⟨hname, hframes, hfragment.push (.name (hadmits.name hkind))⟩, by simp [productionsOf]⟩
  · rw [stepExpression_terminal hkind]
    exact ⟨⟨hname, hframes, hfragment.push (.literal (hadmits.literal hkind))⟩, by simp [productionsOf]⟩
  · rw [stepExpression_opening hkind]
    refine ⟨⟨hname, ?_, Fragment.shaped_empty⟩, by simp [productionsOf]⟩
    exact List.forall_mem_cons.mpr ⟨⟨hadmits.opening bracket hkind, hfragment⟩, hframes⟩
  · rw [stepExpression_bar hkind] at hmissing ⊢
    refine ⟨⟨hname, hframes, hfragment.nextBranch fun hterms => hmissing (Fragment.problem_mem_events hterms)⟩, ?_⟩
    simp [Fragment.productionsOf_events]
  · cases frames with
    | nil =>
      rw [stepExpression_closeProduction hends] at hmissing ⊢
      have hexpression : (fragment.expression token).Shaped leaves .whole := hfragment.expression fun hterms =>
        hmissing (List.mem_append_left _ (List.mem_append_left _ (Fragment.problem_mem_events hterms)))
      refine ⟨trivial, ?_⟩
      rw [productionsOf_closeProduction]
      simp only [List.mem_singleton, forall_eq]
      exact ⟨hname, fun expression heq => Option.some.inj heq ▸ hexpression⟩
    | cons frame frames =>
      rw [stepExpression_closeBracket hends] at hmissing ⊢
      have hbody : (fragment.expression token).Shaped leaves .whole := hfragment.expression fun hterms =>
        hmissing (List.mem_append_left _ (Fragment.problem_mem_events hterms))
      obtain ⟨hframe, hframes⟩ := List.forall_mem_cons.mp hframes
      refine ⟨⟨hname, hframes, hframe.outer.push (.enclosed hframe.opening hbody)⟩, ?_⟩
      simp [productionsOf_closeBracket]

/-- A step keeps the shape of what has been read, if the token may become a leaf, may name a
production where it does, and may stand for a missing term where one is reported. -/
theorem Shaped.step {phase : Phase} (hphase : phase.Shaped leaves) (hadmits : leaves.Admits token)
    (hheading : phase = .between → leaves.heading token)
    (hmissing : .problem (.emptySequenceBefore token) ∈ (phase.step token).2 →
      leaves.malformed token (.emptySequenceBefore token)) :
    (phase.step token).1.Shaped leaves ∧
      ∀ production ∈ productionsOf (phase.step token).2, production.Shaped leaves := by
  cases phase with
  | between => exact ⟨hheading rfl, by simp [Phase.step, Kind.productionsOf_mismatch]⟩
  | named name => exact ⟨hphase, by simp [Phase.step, Kind.productionsOf_mismatch]⟩
  | defining name =>
    by_cases hkind : token.kind = .terminator
    · rw [step_defining_terminator hkind]
      refine ⟨trivial, ?_⟩
      rw [productionsOf_production]
      simp only [List.mem_singleton, forall_eq]
      exact ⟨hphase, by simp⟩
    · rw [step_defining hkind] at hmissing ⊢
      exact Shaped.stepExpression ⟨hphase, by simp, Fragment.shaped_empty⟩ hadmits hmissing
  | within name frames fragment => exact Shaped.stepExpression hphase hadmits hmissing

end Phase

end GrammarCheck
