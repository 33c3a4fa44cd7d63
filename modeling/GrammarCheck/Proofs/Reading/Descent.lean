import GrammarCheck.Proofs.Reading.Composition

/-!
# Reading by recursive descent

Grammars can be read with one function for each rule of their syntax and a cursor on the tokens, which is
not to move past the first token that ends the input. Nothing here takes for granted that it stays there
or that the functions come to an end. They are given how deep calls may be nested, where each round of a
loop is a call within the one before. A call that is nested deeper, a token that is looked for outside of
the list and a slice that begins after its end give no result.
-/

namespace GrammarCheck

/-- Tokens to read, with the index of the one that ends the input. -/
structure Descent where
  tokens : List Token
  stop : Nat
deriving DecidableEq, Repr

/-- How far a descent has come. -/
structure Cursor where
  /-- The index of the current token. -/
  position : Nat
  /-- The position before each move, the latest first. Nothing else changes the position. -/
  passed : List Nat
  diagnostics : List Diagnostic
deriving DecidableEq, Repr

namespace Cursor

def start : Cursor := { position := 0, passed := [], diagnostics := [] }

def report (problem : Diagnostic) (cursor : Cursor) : Cursor :=
  { cursor with diagnostics := cursor.diagnostics ++ [problem] }

/-- Adds a production that has been read to the grammar. A production with the name of an earlier one is
reported, and one without a proper name has been. -/
def keep (production : Production) (grammar : Grammar) (cursor : Cursor) : Grammar × Cursor :=
  if production.name.kind = .nonTerminal then
    match grammar.find? production.name.spelling with
    | some previous => (grammar, cursor.report
        (.duplicateProduction production.name.spelling production.name.line previous.name.line))
    | none => (grammar.insert production.name.spelling production, cursor)
  else (grammar, cursor)

end Cursor

/-- Parts in a list, where a single one stands for itself. -/
def Expression.collapse (wrap : List Expression → Expression) : List Expression → Expression
  | [only] => only
  | parts => wrap parts

namespace Descent

/-! ### The functions of the descent -/

/-- The first token that ends the input is where reading stops. If there is none, one is added. -/
def ofTokens (tokens : List Token) : Descent :=
  match tokens.findIdx? (·.isEndOfInput) with
  | some stop => { tokens, stop }
  | none => { tokens := tokens ++ [.endOfInputAfter tokens], stop := tokens.length }

section Functions

variable (descent : Descent)

def current? (cursor : Cursor) : Option Token := descent.tokens[cursor.position]?

/-- Moves to the next token, but not past the end of input. -/
def advance (cursor : Cursor) : Cursor :=
  { cursor with
    position := if cursor.position < descent.stop then cursor.position + 1 else cursor.position
    passed := cursor.position :: cursor.passed }

/-- The current token. The cursor moves on from it. -/
def next? (cursor : Cursor) : Option (Token × Cursor) := do
  let token ← descent.current? cursor
  return (token, descent.advance cursor)

/-- The current token, which is reported if it is not of the kind. The cursor moves on in any case. -/
def expect? (kind : Kind) (cursor : Cursor) : Option (Token × Cursor) := do
  let found ← descent.current? cursor
  if found.kind = kind then descent.next? cursor
  else descent.next? (cursor.report (.unexpectedToken kind.label found))

mutual

/-- A term, if one begins at the current token. -/
def term? : Nat → Cursor → Option (Option Expression × Cursor)
  | 0, _ => none
  | depth + 1, cursor => do
    let token ← descent.current? cursor
    match token.kind with
    | .nonTerminal =>
      let (name, cursor) ← descent.next? cursor
      return (some (.name name), cursor)
    | .terminal =>
      let (literal, cursor) ← descent.next? cursor
      return (some (.literal literal), cursor)
    | .opening bracket =>
      let (opening, body, cursor) ← enclosed? depth bracket cursor
      return (some (.enclosed bracket opening body), cursor)
    | _ => return (none, cursor)

/-- The token that opens the bracket, and the expression in it. -/
def enclosed? : Nat → Bracket → Cursor → Option (Token × Expression × Cursor)
  | 0, _, _ => none
  | depth + 1, bracket, cursor => do
    let (opening, cursor) ← descent.next? cursor
    let (body, cursor) ← expression? depth cursor
    let (_, cursor) ← descent.expect? (.closing bracket) cursor
    return (opening, body, cursor)

/-- The loop over the terms of a sequence, after those that have been read. -/
def terms? : Nat → List Expression → Cursor → Option (List Expression × Cursor)
  | 0, _, _ => none
  | depth + 1, read, cursor => do
    let (term, cursor) ← term? depth cursor
    match term with
    | some term => terms? depth (read ++ [term]) cursor
    | none => return (read, cursor)

def sequence? : Nat → Cursor → Option (Expression × Cursor)
  | 0, _ => none
  | depth + 1, cursor => do
    let (terms, cursor) ← terms? depth [] cursor
    if terms.isEmpty then
      let found ← descent.current? cursor
      return (.malformed found (.emptySequenceBefore found), cursor.report (.emptySequenceBefore found))
    else return (Expression.collapse .sequence terms, cursor)

/-- The loop over the branches of an expression, after those that have been read. -/
def branches? : Nat → List Expression → Cursor → Option (List Expression × Cursor)
  | 0, _, _ => none
  | depth + 1, read, cursor => do
    let token ← descent.current? cursor
    if token.kind = .bar then
      let (_, cursor) ← descent.next? cursor
      let (branch, cursor) ← sequence? depth cursor
      branches? depth (read ++ [branch]) cursor
    else return (read, cursor)

def expression? : Nat → Cursor → Option (Expression × Cursor)
  | 0, _ => none
  | depth + 1, cursor => do
    let (first, cursor) ← sequence? depth cursor
    let (branches, cursor) ← branches? depth [first] cursor
    return (Expression.collapse .alternative branches, cursor)

end

def production? (depth : Nat) (cursor : Cursor) : Option (Production × Cursor) := do
  let (name, cursor) ← descent.expect? .nonTerminal cursor
  let (_, cursor) ← descent.expect? .equals cursor
  let token ← descent.current? cursor
  if token.kind ≠ .terminator then
    let (expression, cursor) ← descent.expression? depth cursor
    let (_, cursor) ← descent.expect? .terminator cursor
    return (⟨name, some expression⟩, cursor)
  else
    let (_, cursor) ← descent.expect? .terminator cursor
    return (⟨name, none⟩, cursor)

/-- The loop over the productions up to the end of input. -/
def productions? : Nat → Grammar → Cursor → Option (Grammar × Cursor)
  | 0, _, _ => none
  | depth + 1, grammar, cursor => do
    let token ← descent.current? cursor
    if token.isEndOfInput then return (grammar, cursor)
    else
      let (production, cursor) ← descent.production? depth cursor
      let (grammar, cursor) := cursor.keep production grammar
      productions? depth grammar cursor

/-- What follows the end of input. -/
def trailing? : Option (List Token) :=
  if descent.stop + 1 ≤ descent.tokens.length then some (descent.tokens.drop (descent.stop + 1)) else none

end Functions

/-- Reads the tokens up to the end of input, and reports those that follow it. -/
def read? (depth : Nat) (tokens : List Token) : Option (Grammar × Cursor) := do
  let (grammar, cursor) ← (ofTokens tokens).productions? depth .empty .start
  let trailing ← (ofTokens tokens).trailing?
  match trailing with
  | [] => return (grammar, cursor)
  | first :: _ =>
    return (grammar, cursor.report (.trailingTokens first.position trailing.length first.description))

/-! ### Safety -/

/-- The index is that of the first token that ends the input. -/
structure Fenced (descent : Descent) : Prop where
  inside : descent.stop < descent.tokens.length
  ends_iff : ∀ index ≤ descent.stop, ∀ token, descent.tokens[index]? = some token →
    (token.isEndOfInput = true ↔ index = descent.stop)

end Descent

/-- The cursor has never been past the end of input and has never moved back. -/
structure Cursor.Safe (descent : Descent) (cursor : Cursor) : Prop where
  bounded : ∀ place ∈ cursor.position :: cursor.passed, place ≤ descent.stop
  ordered : (cursor.position :: cursor.passed).Pairwise (· ≥ ·)

/-! ### Streams -/

namespace TokenStream

variable {before after : List Token} {stop : Token}

theorem ofTokens_append_cons (hopen : ∀ token ∈ before, token.isEndOfInput = false) (hstop : stop.isEndOfInput = true) :
    ofTokens (before ++ stop :: after) = ⟨before, stop, after⟩ := by
  have hrest : ofTokens (stop :: after) = ⟨[], stop, after⟩ := by simp [ofTokens, hstop]
  rw [ofTokens_append hopen ⟨stop, List.mem_cons_self, hstop⟩, hrest, List.append_nil]

/-- The stream stops at an end of input, and there is none before. -/
structure IsDivided (stream : TokenStream) : Prop where
  body_open : ∀ token ∈ stream.body, token.isEndOfInput = false
  stop_kind : stream.stop.kind = .endOfInput

/-- The tokens of the stream, read up to its end of input. -/
def descent (stream : TokenStream) : Descent :=
  { tokens := stream.body ++ stream.stop :: stream.trailing, stop := stream.body.length }

/-- The current token when the rest of the body is left. -/
def current (stream : TokenStream) (rest : List Token) : Token := rest.headD stream.stop

@[simp] theorem current_nil (stream : TokenStream) : stream.current [] = stream.stop := rfl

@[simp] theorem current_cons (stream : TokenStream) (token : Token) (rest : List Token) :
    stream.current (token :: rest) = token := rfl

theorem isDivided_ofTokens (tokens : List Token) :
    (ofTokens tokens).IsDivided ∧ Descent.ofTokens tokens = (ofTokens tokens).descent := by
  cases hfind : tokens.find? (·.isEndOfInput) with
  | none =>
    have hopen : ∀ token ∈ tokens, token.isEndOfInput = false := by simpa using hfind
    rw [ofTokens_of_open hopen, Descent.ofTokens, List.findIdx?_eq_none_iff.2 hopen]
    exact ⟨⟨hopen, rfl⟩, rfl⟩
  | some stop =>
    obtain ⟨hstop, before, after, rfl, hbefore⟩ := List.find?_eq_some_iff_append.1 hfind
    have hopen : ∀ token ∈ before, token.isEndOfInput = false := by simpa using hbefore
    have hfound : (before ++ stop :: after).findIdx? (·.isEndOfInput) = some before.length := by
      rw [List.findIdx?_append, List.findIdx?_eq_none_iff.2 hopen]
      simp [List.findIdx?_cons, hstop]
    rw [ofTokens_append_cons hopen hstop, Descent.ofTokens, hfound]
    exact ⟨⟨hopen, by simpa [Token.isEndOfInput] using hstop⟩, rfl⟩

theorem IsDivided.fenced {stream : TokenStream} (hdivided : stream.IsDivided) : stream.descent.Fenced where
  inside := by
    rw [descent, List.length_append, List.length_cons]
    exact Nat.lt_add_of_pos_right (Nat.succ_pos _)
  ends_iff := by
    intro index hindex token htoken
    change (stream.body ++ stream.stop :: stream.trailing)[index]? = some token at htoken
    change index ≤ stream.body.length at hindex
    change _ ↔ index = stream.body.length
    rcases Nat.lt_or_eq_of_le hindex with hlt | heq
    · rw [List.getElem?_append_left hlt] at htoken
      have hopen := hdivided.body_open token (List.mem_of_getElem? htoken)
      simp [hopen, Nat.ne_of_lt hlt]
    · rw [heq, List.getElem?_append_right (Nat.le_refl _), Nat.sub_self] at htoken
      have hsame : stream.stop = token := by simpa using htoken
      simp [← hsame, Token.isEndOfInput, hdivided.stop_kind, heq]

end TokenStream

namespace Cursor

variable {stream : TokenStream} {rest : List Token} {cursor : Cursor}

theorem safe_start (descent : Descent) : start.Safe descent where
  bounded := List.forall_mem_singleton.2 (Nat.zero_le _)
  ordered := List.pairwise_singleton _ _

/-- The cursor is safe and so many tokens are left before the end of input. -/
structure Stands (stream : TokenStream) (rest : List Token) (cursor : Cursor) : Prop where
  safe : cursor.Safe stream.descent
  drop_eq : stream.body.drop cursor.position = rest

theorem Safe.position_le {descent : Descent} (hsafe : cursor.Safe descent) : cursor.position ≤ descent.stop :=
  hsafe.bounded _ List.mem_cons_self

theorem Safe.stands (hsafe : cursor.Safe stream.descent) : cursor.Stands stream (stream.body.drop cursor.position) :=
  ⟨hsafe, rfl⟩

theorem Stands.position_add (hstands : cursor.Stands stream rest) :
    cursor.position + rest.length = stream.body.length := by
  have hle : cursor.position ≤ stream.body.length := hstands.safe.position_le
  rw [← hstands.drop_eq, List.length_drop, Nat.add_sub_cancel' hle]

/-- The current token is the first of those that are left, or the end of input. -/
theorem Stands.current?_eq (hstands : cursor.Stands stream rest) :
    stream.descent.current? cursor = some (stream.current rest) := by
  have hposition := hstands.position_add
  change (stream.body ++ stream.stop :: stream.trailing)[cursor.position]? = _
  cases rest with
  | nil =>
    rw [List.length_nil, Nat.add_zero] at hposition
    rw [hposition, List.getElem?_append_right (Nat.le_refl _), Nat.sub_self]
    rfl
  | cons token later =>
    rw [List.length_cons] at hposition
    rw [List.getElem?_append_left (by omega), ← List.head?_drop, hstands.drop_eq]
    rfl

theorem Stands.advance (hstands : cursor.Stands stream rest) :
    (stream.descent.advance cursor).Stands stream rest.tail := by
  have hposition := hstands.position_add
  have hle := hstands.safe.position_le
  have hmoved : (stream.descent.advance cursor).position =
      if cursor.position < stream.descent.stop then cursor.position + 1 else cursor.position := rfl
  have hbounds : cursor.position ≤ (stream.descent.advance cursor).position ∧
      (stream.descent.advance cursor).position ≤ stream.descent.stop := by
    rw [hmoved]
    split <;> omega
  have hordered := hstands.safe.ordered
  refine ⟨⟨?_, ?_⟩, ?_⟩
  · exact List.forall_mem_cons.2 ⟨hbounds.2, hstands.safe.bounded⟩
  · refine List.pairwise_cons.2 ⟨?_, hordered⟩
    intro place hplace
    rcases List.mem_cons.1 hplace with rfl | hpassed
    · exact hbounds.1
    · exact Nat.le_trans ((List.pairwise_cons.1 hordered).1 place hpassed) hbounds.1
  · rw [hmoved]
    split
    · rw [← List.tail_drop, hstands.drop_eq]
    · next hstop =>
      have hnone : rest = [] := by
        have hend : stream.body.length ≤ cursor.position := Nat.le_of_not_lt hstop
        exact List.eq_nil_of_length_eq_zero (by omega)
      rw [hstands.drop_eq, hnone]
      rfl

theorem Stands.report (hstands : cursor.Stands stream rest) (problem : Diagnostic) :
    (cursor.report problem).Stands stream rest :=
  ⟨⟨hstands.safe.bounded, hstands.safe.ordered⟩, hstands.drop_eq⟩

end Cursor

/-! ### Taking a token -/

/-- The problem with a token that has to be of a kind, if it is not, as it is reported. -/
def Kind.mismatchProblems (kind : Kind) (found : Token) : List Diagnostic :=
  if found.kind = kind then [] else [.unexpectedToken kind.label found]

theorem Kind.mismatch_eq (kind : Kind) (found : Token) :
    kind.mismatch found = (kind.mismatchProblems found).map .problem := by
  unfold mismatch mismatchProblems
  split <;> rfl

namespace Cursor

variable {stream : TokenStream} {rest : List Token} {cursor : Cursor}

theorem Stands.next?_eq (hstands : cursor.Stands stream rest) :
    stream.descent.next? cursor = some (stream.current rest, stream.descent.advance cursor) := by
  rw [Descent.next?, hstands.current?_eq]
  rfl

/-- The token that is expected is taken whatever it is. -/
theorem Stands.exists_expect?_eq (hstands : cursor.Stands stream rest) (kind : Kind) :
    ∃ cursor', stream.descent.expect? kind cursor = some (stream.current rest, cursor') ∧
      cursor'.Stands stream rest.tail ∧
      cursor'.diagnostics = cursor.diagnostics ++ kind.mismatchProblems (stream.current rest) := by
  rw [Descent.expect?, hstands.current?_eq, Option.bind_eq_bind, Option.bind_some, Kind.mismatchProblems]
  split
  · exact ⟨_, hstands.next?_eq, hstands.advance, (List.append_nil _).symm⟩
  · have hreported := hstands.report (.unexpectedToken kind.label (stream.current rest))
    exact ⟨_, hreported.next?_eq, hreported.advance, rfl⟩

end Cursor

end GrammarCheck
