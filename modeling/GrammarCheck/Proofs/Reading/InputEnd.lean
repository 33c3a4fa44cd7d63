import GrammarCheck.Proofs.Reading.Composition
import GrammarCheck.Proofs.Reading.Definitions
import GrammarCheck.Proofs.Scanning.InputEnd

/-!
# Reading up to an end that is assumed

The end of input can be stored where a term is missing, and problems can be reported at it. Apart from
that it is a token as any other, so moving it to another place moves it wherever it is stored and
reported, and changes nothing else. The tokens of a source are read without their end of input as they
are with it, once that has been moved to where it is assumed.
-/

namespace GrammarCheck

/-! ### Moving the end of input -/

/-- The token at the position, if it is the end of input. -/
def Token.moveEnd (position : Position) (token : Token) : Token :=
  if token.isEndOfInput then { token with position } else token

/-- The diagnostic with the position, if it says that the end of input was found. -/
def Diagnostic.moveEnd (position : Position) : Diagnostic → Diagnostic
  | .unexpected place expected found =>
    .unexpected (if found = Kind.endOfInput.label then position else place) expected found
  | .emptySequence place found => .emptySequence (if found = Kind.endOfInput.label then position else place) found
  | other => other

variable (position : Position)

namespace Expression

mutual

/-- The expression with the end of input moved where it stands for a missing term. -/
def moveEnd : Expression → Expression
  | .alternative branches => .alternative (moveEndAll branches)
  | .sequence terms => .sequence (moveEndAll terms)
  | .name token => .name token
  | .literal token => .literal token
  | .enclosed bracket opening body => .enclosed bracket opening (moveEnd body)
  | .malformed found problem => .malformed (found.moveEnd position) (problem.moveEnd position)

def moveEndAll : List Expression → List Expression
  | [] => []
  | expression :: rest => moveEnd expression :: moveEndAll rest

end

theorem moveEndAll_eq_map (expressions : List Expression) :
    moveEndAll position expressions = expressions.map (moveEnd position) := by
  induction expressions with
  | nil => rfl
  | cons expression rest ih => rw [moveEndAll, ih, List.map_cons]

end Expression

def Production.moveEnd (production : Production) : Production :=
  { production with expression := production.expression.map (Expression.moveEnd position) }

/-- The grammar with the same names and the end of input moved in its expressions. -/
def Grammar.moveEnd (grammar : Grammar) : Grammar where
  entries := grammar.entries.map fun entry => (entry.1, entry.2.moveEnd position)
  ordered := List.pairwise_map.2 grammar.ordered

/-- What was read, with the end of input moved wherever it is stored or reported. -/
def Reading.moveEnd (reading : Reading) : Reading where
  grammar := reading.grammar.moveEnd position
  definitions := reading.definitions.map (Production.moveEnd position)
  diagnostics := reading.diagnostics.map (Diagnostic.moveEnd position)

/-! ### Grammars -/

namespace Grammar

@[simp] theorem find?_moveEnd (grammar : Grammar) (key : String) :
    (grammar.moveEnd position).find? key = (grammar.find? key).map (Production.moveEnd position) := by
  rw [find?, find?, moveEnd, List.find?_map, Option.map_map, Option.map_map]
  rfl

theorem moveEnd_insert (grammar : Grammar) (key : String) (production : Production) :
    (grammar.insert key production).moveEnd position =
      (grammar.moveEnd position).insert key (production.moveEnd position) := by
  apply ext_find?
  intro wanted
  rw [find?_moveEnd, find?_insert, find?_insert, find?_moveEnd, apply_ite (Option.map (Production.moveEnd position)),
    Option.map_some]

end Grammar

/-! ### Problems at a token -/

/-- The description of the token tells whether it is the end of input. -/
def Token.TellsEnd (token : Token) : Prop := token.description = Kind.endOfInput.label ↔ token.isEndOfInput = true

section TellsEnd

variable {token : Token}

theorem Token.kind_moveEnd (token : Token) : (token.moveEnd position).kind = token.kind := by
  unfold moveEnd
  split <;> rfl

theorem Token.moveEnd_of_not_end (hopen : token.isEndOfInput = false) : token.moveEnd position = token :=
  if_neg (by simp [hopen])

theorem Token.TellsEnd.position_moveEnd (htells : token.TellsEnd) :
    (if token.description = Kind.endOfInput.label then position else token.position) =
        (token.moveEnd position).position ∧
      token.description = (token.moveEnd position).description := by
  unfold Token.moveEnd
  by_cases hends : token.isEndOfInput = true
  · rw [if_pos hends, if_pos (htells.2 hends)]
    exact ⟨rfl, rfl⟩
  · rw [if_neg hends, if_neg (mt htells.1 hends)]
    exact ⟨rfl, rfl⟩

theorem Token.TellsEnd.unexpectedToken (htells : token.TellsEnd) (expected : String) :
    (Diagnostic.unexpectedToken expected token).moveEnd position =
      .unexpectedToken expected (token.moveEnd position) := by
  obtain ⟨hposition, hdescription⟩ := htells.position_moveEnd position
  rw [Diagnostic.unexpectedToken, Diagnostic.unexpectedToken, Diagnostic.moveEnd, hposition, hdescription]

theorem Token.TellsEnd.emptySequenceBefore (htells : token.TellsEnd) :
    (Diagnostic.emptySequenceBefore token).moveEnd position = .emptySequenceBefore (token.moveEnd position) := by
  obtain ⟨hposition, hdescription⟩ := htells.position_moveEnd position
  rw [Diagnostic.emptySequenceBefore, Diagnostic.emptySequenceBefore, Diagnostic.moveEnd, hposition, hdescription]

end TellsEnd

/-! ### Expressions while they are read -/

namespace Fragment

def moveEnd (fragment : Fragment) : Fragment :=
  ⟨fragment.branches.map (Expression.moveEnd position), fragment.terms.map (Expression.moveEnd position)⟩

variable (fragment : Fragment) {found : Token}

theorem sequence_moveEnd (htells : found.TellsEnd) :
    (fragment.sequence found).moveEnd position = (fragment.moveEnd position).sequence (found.moveEnd position) := by
  obtain ⟨branches, terms⟩ := fragment
  match terms with
  | [] => exact congrArg _ (htells.emptySequenceBefore position)
  | [term] => rfl
  | first :: second :: rest =>
    change Expression.sequence (Expression.moveEndAll position _) = Expression.sequence _
    rw [Expression.moveEndAll_eq_map, List.map_reverse]
    rfl

theorem expression_moveEnd (htells : found.TellsEnd) :
    (fragment.expression found).moveEnd position =
      (fragment.moveEnd position).expression (found.moveEnd position) := by
  have hsequence := fragment.sequence_moveEnd position htells
  obtain ⟨branches, terms⟩ := fragment
  cases branches with
  | nil => exact hsequence
  | cons branch rest =>
    change Expression.alternative (Expression.moveEndAll position _) = Expression.alternative _
    rw [Expression.moveEndAll_eq_map, List.map_reverse, List.map_cons, hsequence]
    rfl

theorem nextBranch_moveEnd (htells : found.TellsEnd) :
    (fragment.nextBranch found).moveEnd position =
      (fragment.moveEnd position).nextBranch (found.moveEnd position) := by
  rw [nextBranch, nextBranch, ← sequence_moveEnd position fragment htells]
  rfl

end Fragment

def Frame.moveEnd (frame : Frame) : Frame := { frame with outer := frame.outer.moveEnd position }

theorem Frame.close_moveEnd (frame : Frame) (body : Expression) :
    (frame.close body).moveEnd position = (frame.moveEnd position).close (body.moveEnd position) := rfl

/-! ### Events -/

def Event.moveEnd : Event → Event
  | .problem diagnostic => .problem (diagnostic.moveEnd position)
  | .production completed => .production (completed.moveEnd position)

variable {found token stop : Token}

theorem Kind.mismatch_moveEnd (kind : Kind) (htells : found.TellsEnd) :
    (kind.mismatch found).map (Event.moveEnd position) = kind.mismatch (found.moveEnd position) := by
  rw [mismatch, mismatch, found.kind_moveEnd]
  split
  · rfl
  · rw [List.map_singleton, Event.moveEnd, htells.unexpectedToken]

theorem Fragment.events_moveEnd (fragment : Fragment) (htells : found.TellsEnd) :
    (fragment.events found).map (Event.moveEnd position) =
      (fragment.moveEnd position).events (found.moveEnd position) := by
  obtain ⟨branches, terms⟩ := fragment
  cases terms with
  | nil => exact congrArg (fun problem => [Event.problem problem]) (htells.emptySequenceBefore position)
  | cons term rest => rfl

/-! ### Steps -/

namespace Phase

def moveEnd : Phase → Phase
  | .within name frames fragment => .within name (frames.map (Frame.moveEnd position)) (fragment.moveEnd position)
  | other => other

variable (name : Token) (frames : List Frame) (frame : Frame) (fragment : Fragment)

theorem closeBracket_moveEnd (htells : token.TellsEnd) :
    (closeBracket frame fragment token).map (Event.moveEnd position) =
      closeBracket (frame.moveEnd position) (fragment.moveEnd position) (token.moveEnd position) := by
  rw [closeBracket, List.map_append, Fragment.events_moveEnd position fragment htells,
    Kind.mismatch_moveEnd position _ htells]
  rfl

theorem closeProduction_moveEnd (htells : token.TellsEnd) :
    (closeProduction name fragment token).map (Event.moveEnd position) =
      closeProduction name (fragment.moveEnd position) (token.moveEnd position) := by
  rw [closeProduction, List.map_append, List.map_append, Fragment.events_moveEnd position fragment htells,
    Kind.mismatch_moveEnd position _ htells, closeProduction, ← Fragment.expression_moveEnd position fragment htells]
  rfl

/-- The cases are the five effects of a token within an expression. The end of input has none of the first
four, and it is not the token here. -/
theorem stepExpression_moveEnd (htells : token.TellsEnd) (hopen : token.isEndOfInput = false) :
    stepExpression name (frames.map (Frame.moveEnd position)) (fragment.moveEnd position) token =
      ((stepExpression name frames fragment token).1.moveEnd position,
        (stepExpression name frames fragment token).2.map (Event.moveEnd position)) := by
  have hstays := token.moveEnd_of_not_end position hopen
  have hevents := fragment.events_moveEnd position htells
  have hexpression := fragment.expression_moveEnd position htells
  have hnext := fragment.nextBranch_moveEnd position htells
  rw [hstays] at hevents hexpression hnext
  rcases token.kind.expression_cases with hkind | hkind | ⟨bracket, hkind⟩ | hkind | hends
  · rw [stepExpression_nonTerminal hkind, stepExpression_nonTerminal hkind]
    rfl
  · rw [stepExpression_terminal hkind, stepExpression_terminal hkind]
    rfl
  · rw [stepExpression_opening hkind, stepExpression_opening hkind]
    rfl
  · rw [stepExpression_bar hkind, stepExpression_bar hkind, moveEnd, hevents, hnext]
  · cases frames with
    | nil =>
      have hclose := closeProduction_moveEnd position name fragment htells
      rw [hstays] at hclose
      rw [List.map_nil, stepExpression_closeProduction hends, stepExpression_closeProduction hends, hclose]
      rfl
    | cons frame frames =>
      have hclose := closeBracket_moveEnd position frame fragment htells
      rw [hstays] at hclose
      rw [List.map_cons, stepExpression_closeBracket hends, stepExpression_closeBracket hends, hclose, moveEnd,
        Frame.close_moveEnd, hexpression]

theorem step_moveEnd (phase : Phase) (htells : token.TellsEnd) (hopen : token.isEndOfInput = false) :
    (phase.moveEnd position).step token =
      ((phase.step token).1.moveEnd position, (phase.step token).2.map (Event.moveEnd position)) := by
  have hmismatch (kind : Kind) := kind.mismatch_moveEnd position htells
  rw [token.moveEnd_of_not_end position hopen] at hmismatch
  cases phase with
  | between => exact congrArg (Prod.mk _) (hmismatch .nonTerminal).symm
  | named name => exact congrArg (Prod.mk _) (hmismatch .equals).symm
  | defining name =>
    change (defining name).step token = _
    by_cases hkind : token.kind = .terminator
    · rw [step_defining_terminator hkind]
      rfl
    · rw [step_defining hkind]
      exact stepExpression_moveEnd position name [] .empty htells hopen
  | within name frames fragment => exact stepExpression_moveEnd position name frames fragment htells hopen

/-- By induction on the open brackets, each of which becomes a term of what is around it. -/
theorem finishExpression_moveEnd (htells : stop.TellsEnd) :
    (finishExpression name frames fragment stop).map (Event.moveEnd position) =
      finishExpression name (frames.map (Frame.moveEnd position)) (fragment.moveEnd position) (stop.moveEnd position) := by
  induction frames generalizing fragment with
  | nil => exact closeProduction_moveEnd position name fragment htells
  | cons frame frames ih =>
    rw [List.map_cons, finishExpression, finishExpression, List.map_append, closeBracket_moveEnd position _ _ htells, ih,
      Frame.close_moveEnd, Fragment.expression_moveEnd position fragment htells]

theorem finish_moveEnd (phase : Phase) (htells : stop.TellsEnd) :
    (phase.finish stop).map (Event.moveEnd position) = (phase.moveEnd position).finish (stop.moveEnd position) := by
  cases phase with
  | between => rfl
  | named name =>
    rw [finish, List.map_append, Kind.mismatch_moveEnd position _ htells,
      finishExpression_moveEnd position name [] .empty htells]
    rfl
  | defining name => exact finishExpression_moveEnd position name [] .empty htells
  | within name frames fragment => exact finishExpression_moveEnd position name frames fragment htells

/-! ### Runs -/

/-- Moving the end of input of a run moves it in what the run brings about. -/
theorem outcome_moveEnd (phase : Phase) {tokens : List Token}
    (hall : ∀ token ∈ tokens, token.TellsEnd ∧ token.isEndOfInput = false) (htells : stop.TellsEnd) :
    (phase.outcome tokens stop).map (Event.moveEnd position) =
      (phase.moveEnd position).outcome tokens (stop.moveEnd position) := by
  induction tokens generalizing phase with
  | nil => exact finish_moveEnd position phase htells
  | cons token rest ih =>
    obtain ⟨⟨htoken, hopen⟩, hrest⟩ := List.forall_mem_cons.1 hall
    rw [outcome_cons, outcome_cons, List.map_append, step_moveEnd position phase htoken hopen, ih _ hrest]

end Phase

namespace Reading

theorem ofEvents_moveEnd (grammar : Grammar) (events : List Event) :
    (ofEvents grammar events).moveEnd position =
      ofEvents (grammar.moveEnd position) (events.map (Event.moveEnd position)) := by
  have hfind (grammar : Grammar) (production : Production) :
      (grammar.moveEnd position).find? (production.moveEnd position).name.spelling =
        (grammar.find? production.name.spelling).map (Production.moveEnd position) :=
    grammar.find?_moveEnd position _
  have hkind (production : Production) : (production.moveEnd position).name.kind = production.name.kind := rfl
  fun_induction ofEvents grammar events with
  | case1 grammar => rfl
  | case2 grammar problem rest ih =>
    rw [List.map_cons, Event.moveEnd, ofEvents, ← ih]
    rfl
  | case3 grammar production rest hname previous hprevious ih =>
    rw [List.map_cons, Event.moveEnd, ofEvents_repeated ((hkind production).trans hname)
      ((hfind grammar production).trans (congrArg _ hprevious)), ← ih]
    rfl
  | case4 grammar production rest hname hnew ih =>
    rw [Grammar.moveEnd_insert] at ih
    rw [List.map_cons, Event.moveEnd, ofEvents_new ((hkind production).trans hname)
      ((hfind grammar production).trans (congrArg _ hnew))]
    exact congrArg (define (production.moveEnd position)) ih
  | case5 grammar production rest hname ih =>
    have hother : (production.moveEnd position).name.kind ≠ .nonTerminal := hname
    rw [List.map_cons, Event.moveEnd, ofEvents_unnamed hother, ih]

variable {stop : Token} {tokens : List Token}

theorem moveEnd_ofTokens (hall : ∀ token ∈ tokens, token.TellsEnd ∧ token.isEndOfInput = false)
    (htells : stop.TellsEnd) (hstop : stop.isEndOfInput = true) :
    (ofTokens (tokens ++ [stop])).moveEnd position = ofTokens (tokens ++ [stop.moveEnd position]) := by
  have hread : ∀ token ∈ tokens, token.isEndOfInput = false := fun token hmem => (hall token hmem).2
  have hmoved : (stop.moveEnd position).isEndOfInput = true := by
    rwa [Token.isEndOfInput, Token.kind_moveEnd]
  have hevents : (TokenStream.events ⟨tokens, stop, []⟩).map (Event.moveEnd position) =
      TokenStream.events ⟨tokens, stop.moveEnd position, []⟩ :=
    Phase.outcome_moveEnd position .between hall htells
  have hreading := ofEvents_moveEnd position .empty (TokenStream.events ⟨tokens, stop, []⟩)
  rw [hevents] at hreading
  rw [ofTokens, ofTokens, ofTokens_concat_stop hread hstop, ofTokens_concat_stop hread hmoved]
  simp only [trailingProblems, List.append_nil]
  exact hreading

/-- Tokens without an end of input are read as if the one assumed after them were there. -/
theorem ofTokens_append_endOfInputAfter (hopen : ∀ token ∈ tokens, token.isEndOfInput = false) :
    ofTokens (tokens ++ [.endOfInputAfter tokens]) = ofTokens tokens := by
  rw [ofTokens, ofTokens, ofTokens_concat_stop hopen rfl, TokenStream.ofTokens_of_open hopen]

/-! ### The tokens of a source -/

theorem tellsEnd_of_mem_openTokens {source : List UInt8} {token : Token} (hmem : token ∈ openTokens source) :
    token.TellsEnd ∧ token.isEndOfInput = false := by
  obtain ⟨hscan, hpasses⟩ := List.mem_filter.1 hmem
  have hopen : token.isEndOfInput = false := by simpa using hpasses
  obtain ⟨piece, hpiece, htoken⟩ := exists_piece_of_mem_scan hscan
  rcases hpiece with hoccurs | rfl
  · have hdescription := hoccurs.description_ne token.index
    rw [htoken] at hdescription
    exact ⟨iff_of_false hdescription (by simp [hopen]), hopen⟩
  · rw [← htoken] at hopen
    contradiction

/-- The tokens of a source are read without the end of input as with it, but for where the end of input
is. It is at the same place as well, if the source is empty or its last byte belongs to a token. -/
theorem ofTokens_openTokens (source : List UInt8) :
    (source = [] ∨ (∃ piece : Piece, piece.Occurs source ∧ piece.Covers (source.length - 1)) →
      ofTokens (openTokens source) = ofSource source) ∧
    ofTokens (openTokens source) =
      (ofSource source).moveEnd (Token.endOfInputAfter (openTokens source)).position := by
  have hopen : ∀ token ∈ openTokens source, token.isEndOfInput = false :=
    fun token hmem => (tellsEnd_of_mem_openTokens hmem).2
  refine ⟨?_, ?_⟩
  · intro hends
    rw [ofSource, scan_eq_openTokens_append hends, ofTokens_append_endOfInputAfter hopen]
  · obtain ⟨pieces, _, _, htokens, hscan⟩ := exists_openTokens_eq source
    have hlength : (openTokens source).length = pieces.length := by
      rw [htokens, List.length_map, List.length_zipIdx]
    have hmoved : ((Piece.endOfInput source).token source pieces.length).moveEnd
        (Token.endOfInputAfter (openTokens source)).position = .endOfInputAfter (openTokens source) := by
      rw [← hlength]
      rfl
    have htells : ((Piece.endOfInput source).token source pieces.length).TellsEnd := iff_of_true rfl rfl
    rw [ofSource, hscan, moveEnd_ofTokens _ (fun _ => tellsEnd_of_mem_openTokens) htells rfl, hmoved,
      ofTokens_append_endOfInputAfter hopen]

/-- The source `a = ( B |`, whose last byte belongs to a token, and the same source with a comment after
it. Each of the three problems is at the end of input. -/
theorem ofTokens_openTokens_unfinished :
    let source := Utf8.encode "a = ( B |"
    let commented := Utf8.encode "a = ( B |  ; é\n"
    ofTokens (openTokens source) = ofSource source ∧
      (ofSource source).diagnostics = [.emptySequence ⟨1, 10⟩ "EOF", .unexpected ⟨1, 10⟩ "END_GROUP" "EOF",
        .unexpected ⟨1, 10⟩ "TERMINATOR" "EOF"] ∧
      ofTokens (openTokens commented) = (ofSource commented).moveEnd ⟨1, 10⟩ ∧
      (ofSource commented).diagnostics = [.emptySequence ⟨2, 1⟩ "EOF", .unexpected ⟨2, 1⟩ "END_GROUP" "EOF",
        .unexpected ⟨2, 1⟩ "TERMINATOR" "EOF"] := by
  intro source commented
  have hoccurs : Piece.Occurs source { start := 8, stop := 9, kind := .bar, text := [] } := by
    refine .punctuation (show source[8]? = some 0x7c from rfl) rfl ?_
    rintro ⟨_, marker, hle, hmarker, _⟩
    have hnone : ∀ offset ≤ 8, source[offset]? ≠ some commentMarker := by decide +kernel
    exact hnone marker hle hmarker
  have hends : ∃ piece : Piece, piece.Occurs source ∧ piece.Covers (source.length - 1) :=
    ⟨_, hoccurs, by decide +kernel, by decide +kernel⟩
  have hplace : (Token.endOfInputAfter (openTokens commented)).position = ⟨1, 10⟩ := by decide +kernel
  have hmoved := (ofTokens_openTokens commented).2
  rw [hplace] at hmoved
  exact ⟨(ofTokens_openTokens source).1 (.inr hends), by decide +kernel, hmoved, by decide +kernel⟩

end Reading

end GrammarCheck
