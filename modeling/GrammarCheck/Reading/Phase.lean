import GrammarCheck.Grammar.Production
import GrammarCheck.Reading.Fragment
import GrammarCheck.Reading.TokenStream
/-!
# Reading productions token by token

The reader takes one token at a time. Between tokens it is in a phase, and each token takes it to
another phase and may complete a production or cause problems. A token that does not fit is reported
and passed over as if it were the one needed, so every token is taken exactly once.
-/

namespace GrammarCheck

/-- What a token brings about. -/
inductive Event where
  | problem (problem : Diagnostic)
  | production (production : Production)
deriving DecidableEq, Repr

/-- Where the reader is between two tokens. -/
inductive Phase where
  | between
  | named (name : Token)
  | defining (name : Token)
  /-- Within the right-hand side, with the brackets that are open, the innermost first. -/
  | within (name : Token) (frames : List Frame) (fragment : Fragment)
deriving DecidableEq, Repr

/-- The problem with a token that has to be of a kind, if it is not. -/
def Kind.mismatch (kind : Kind) (found : Token) : List Event :=
  if found.kind = kind then [] else [.problem (.unexpectedToken kind.label found)]

/-- The problems that a token causes by ending an expression. -/
def Fragment.events (fragment : Fragment) (found : Token) : List Event :=
  (fragment.sequenceProblems found).map .problem

namespace Phase

/-- What a token brings about that ends the expression within a bracket. -/
def closeBracket (frame : Frame) (fragment : Fragment) (token : Token) : List Event :=
  fragment.events token ++ (Kind.closing frame.bracket).mismatch token

/-- What a token brings about that ends the expression of a production. -/
def closeProduction (name : Token) (fragment : Fragment) (token : Token) : List Event :=
  fragment.events token ++ Kind.terminator.mismatch token ++
    [.production ⟨name, some (fragment.expression token)⟩]

/-- The effect of a token within an expression. Tokens that neither begin a term nor separate
alternatives end the expression. -/
def stepExpression (name : Token) (frames : List Frame) (fragment : Fragment) (token : Token) :
    Phase × List Event :=
  match token.kind with
  | .nonTerminal => (.within name frames (fragment.push (.name token)), [])
  | .terminal => (.within name frames (fragment.push (.literal token)), [])
  | .opening bracket => (.within name (⟨bracket, token, fragment⟩ :: frames) .empty, [])
  | .bar => (.within name frames (fragment.nextBranch token), fragment.events token)
  | _ =>
    match frames with
    | frame :: frames =>
      (.within name frames (frame.close (fragment.expression token)), closeBracket frame fragment token)
    | [] => (.between, closeProduction name fragment token)

/-- The effect of a token that is not the end of input. -/
def step : Phase → Token → Phase × List Event
  | .between, token => (.named token, Kind.nonTerminal.mismatch token)
  | .named name, token => (.defining name, Kind.equals.mismatch token)
  | .defining name, token =>
    if token.kind = .terminator then (.between, [.production ⟨name, none⟩])
    else stepExpression name [] .empty token
  | .within name frames fragment, token => stepExpression name frames fragment token

/-- What the end of input brings about within an expression: it ends all of the open brackets and the
production, though it closes none of them. -/
def finishExpression (name : Token) : List Frame → Fragment → Token → List Event
  | frame :: frames, fragment, stop =>
    closeBracket frame fragment stop ++
      finishExpression name frames (frame.close (fragment.expression stop)) stop
  | [], fragment, stop => closeProduction name fragment stop

/-- What the end of input brings about. -/
def finish : Phase → Token → List Event
  | .between, _ => []
  | .named name, stop => Kind.equals.mismatch stop ++ finishExpression name [] .empty stop
  | .defining name, stop => finishExpression name [] .empty stop
  | .within name frames fragment, stop => finishExpression name frames fragment stop

def after (phase : Phase) (tokens : List Token) : Phase :=
  tokens.foldl (fun phase token => (phase.step token).1) phase

/-- What tokens bring about one after the other. -/
def events : Phase → List Token → List Event
  | _, [] => []
  | phase, token :: rest => (phase.step token).2 ++ events (phase.step token).1 rest

theorem after_append (phase : Phase) (first second : List Token) :
    phase.after (first ++ second) = (phase.after first).after second :=
  List.foldl_append

/-- What comes first brings about the same whatever follows it. -/
theorem events_append (phase : Phase) (first second : List Token) :
    phase.events (first ++ second) = phase.events first ++ (phase.after first).events second := by
  induction first generalizing phase with
  | nil => rfl
  | cons token rest ih => simp [events, after, ih]

end Phase

/-- What a stream of tokens brings about, up to and including the end of input. -/
def TokenStream.events (stream : TokenStream) : List Event :=
  Phase.between.events stream.body ++ (Phase.between.after stream.body).finish stream.stop

end GrammarCheck
