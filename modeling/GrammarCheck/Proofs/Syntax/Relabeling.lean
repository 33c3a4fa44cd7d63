import GrammarCheck.Grammar.Lemmas

/-!
# Relabeling

The tokens of a grammar can be exchanged for others of the same kind and spelling. A relabeling says
how, and what becomes of the diagnostics that are about them: one that is stated for a token and then
relabeled is the one stated for the relabeled token. Taking away the places of tokens is a relabeling.
-/

namespace GrammarCheck

/-- An exchange of tokens for others of the same kind and spelling, and of diagnostics in step with it. -/
structure Relabeling where
  token : Token → Token
  diagnostic : Diagnostic → Diagnostic
  kind_token : ∀ found, (token found).kind = found.kind
  spelling_token : ∀ found, (token found).spelling = found.spelling
  unexpectedToken_eq : ∀ expected found,
    diagnostic (.unexpectedToken expected found) = .unexpectedToken expected (token found)
  emptySequenceBefore_eq : ∀ found, diagnostic (.emptySequenceBefore found) = .emptySequenceBefore (token found)
  duplicateProduction_eq : ∀ name repeated previous,
    diagnostic (.duplicateProduction name (Token.line repeated) (Token.line previous)) =
      .duplicateProduction name (token repeated).line (token previous).line
  noStartProduction_eq : ∀ name, diagnostic (.noStartProduction name) = .noStartProduction name
  missingProduction_eq : ∀ name found,
    diagnostic (.missingProduction name (Token.position found)) = .missingProduction name (token found).position
  unreachable_eq : ∀ key name, diagnostic (.unreachable key (Token.line name)) = .unreachable key (token name).line
  nonLexicalReference_eq : ∀ name found,
    diagnostic (.nonLexicalReference name (Token.position found)) = .nonLexicalReference name (token found).position

/-! ### Taking places away -/

/-- The token as it is, but for its line and column. -/
def Token.unpositioned (token : Token) : Token := { token with position := ⟨0, 0⟩ }

/-- The diagnostic as it is, but for the lines and columns in it. -/
def Diagnostic.unpositioned : Diagnostic → Diagnostic
  | .unexpected _ expected found => .unexpected ⟨0, 0⟩ expected found
  | .emptySequence _ found => .emptySequence ⟨0, 0⟩ found
  | .duplicateProduction name _ _ => .duplicateProduction name 0 0
  | .trailingTokens _ count found => .trailingTokens ⟨0, 0⟩ count found
  | .noStartProduction name => .noStartProduction name
  | .missingProduction name _ => .missingProduction name ⟨0, 0⟩
  | .unreachable name _ => .unreachable name 0
  | .nonLexicalReference name _ => .nonLexicalReference name ⟨0, 0⟩

/-- Tokens keep their kind and their text and lose their position. What else of them is kept does not
matter to diagnostics. -/
def Relabeling.unplacing (token : Token → Token) (hkind : ∀ found, (token found).kind = found.kind)
    (htext : ∀ found, (token found).text = found.text) (hposition : ∀ found, (token found).position = ⟨0, 0⟩) :
    Relabeling where
  token := token
  diagnostic := Diagnostic.unpositioned
  kind_token := hkind
  spelling_token found := congrArg Utf8.decodeLossy (htext found)
  unexpectedToken_eq expected found := by
    rw [Diagnostic.unexpectedToken, Diagnostic.unexpectedToken, Token.description, Token.description, Token.spelling,
      Token.spelling, hkind, htext, hposition]
    rfl
  emptySequenceBefore_eq found := by
    rw [Diagnostic.emptySequenceBefore, Diagnostic.emptySequenceBefore, Token.description, Token.description,
      Token.spelling, Token.spelling, hkind, htext, hposition]
    rfl
  duplicateProduction_eq name repeated previous := by
    have hline (found : Token) : (token found).line = 0 := congrArg Position.line (hposition found)
    rw [hline, hline]
    rfl
  noStartProduction_eq _ := rfl
  missingProduction_eq name found := congrArg (Diagnostic.missingProduction name) (hposition found).symm
  unreachable_eq key name := congrArg (Diagnostic.unreachable key) (congrArg Position.line (hposition name)).symm
  nonLexicalReference_eq name found := congrArg (Diagnostic.nonLexicalReference name) (hposition found).symm

/-- Lines and columns are taken away. -/
def Relabeling.unpositioned : Relabeling :=
  .unplacing Token.unpositioned (fun _ => rfl) (fun _ => rfl) fun _ => rfl

variable (relabeling : Relabeling)

/-! ### Expressions -/

namespace Expression

mutual

def relabel : Expression → Expression
  | .alternative branches => .alternative (relabelAll branches)
  | .sequence terms => .sequence (relabelAll terms)
  | .name token => .name (relabeling.token token)
  | .literal token => .literal (relabeling.token token)
  | .enclosed bracket opening body => .enclosed bracket (relabeling.token opening) (relabel body)
  | .malformed found problem => .malformed (relabeling.token found) (relabeling.diagnostic problem)

def relabelAll : List Expression → List Expression
  | [] => []
  | expression :: rest => relabel expression :: relabelAll rest

end

theorem relabelAll_eq_map (expressions : List Expression) :
    relabelAll relabeling expressions = expressions.map (relabel relabeling) := by
  induction expressions with
  | nil => rfl
  | cons expression rest ih => rw [relabelAll, ih, List.map_cons]

def Occurrence.relabel : Occurrence → Occurrence
  | .reference token => .reference (relabeling.token token)
  | .problem diagnostic => .problem (relabeling.diagnostic diagnostic)

mutual

theorem occurrences_relabel : ∀ expression : Expression,
    (expression.relabel relabeling).occurrences = expression.occurrences.map (Occurrence.relabel relabeling)
  | .alternative branches => by rw [relabel, occurrences, occurrences, occurrencesAll_relabelAll branches]
  | .sequence terms => by rw [relabel, occurrences, occurrences, occurrencesAll_relabelAll terms]
  | .name _ => rfl
  | .literal _ => rfl
  | .enclosed _ _ body => by rw [relabel, occurrences, occurrences, occurrences_relabel body]
  | .malformed .. => rfl

theorem occurrencesAll_relabelAll : ∀ expressions : List Expression,
    occurrencesAll (relabelAll relabeling expressions) =
      (occurrencesAll expressions).map (Occurrence.relabel relabeling)
  | [] => rfl
  | expression :: rest => by
    rw [relabelAll, occurrencesAll, occurrencesAll, List.map_append, occurrences_relabel expression,
      occurrencesAll_relabelAll rest]

end

end Expression

/-! ### Productions -/

namespace Production

def relabel (production : Production) : Production :=
  ⟨relabeling.token production.name, production.expression.map (Expression.relabel relabeling)⟩

@[simp] theorem name_relabel (production : Production) :
    (production.relabel relabeling).name = relabeling.token production.name := rfl

theorem occurrences_relabel (production : Production) :
    (production.relabel relabeling).occurrences =
      production.occurrences.map (Expression.Occurrence.relabel relabeling) := by
  obtain ⟨name, expression⟩ := production
  cases expression with
  | none => rfl
  | some expression => exact expression.occurrences_relabel relabeling

end Production

/-! ### Grammars -/

namespace Grammar

/-- The relabeled production under the same key. -/
def relabelEntry (entry : String × Production) : String × Production := (entry.1, entry.2.relabel relabeling)

def relabel (grammar : Grammar) : Grammar where
  entries := grammar.entries.map (relabelEntry relabeling)
  ordered := List.pairwise_map.2 grammar.ordered

variable (grammar : Grammar)

@[simp] theorem find?_relabel (key : String) :
    (grammar.relabel relabeling).find? key = (grammar.find? key).map (Production.relabel relabeling) := by
  rw [find?, find?, relabel, List.find?_map, Option.map_map, Option.map_map]
  rfl

@[simp] theorem contains_relabel (key : String) : (grammar.relabel relabeling).contains key = grammar.contains key := by
  rw [contains, contains, find?_relabel, Option.isSome_map]

theorem relabel_insert (key : String) (production : Production) :
    (grammar.insert key production).relabel relabeling =
      (grammar.relabel relabeling).insert key (production.relabel relabeling) := by
  apply ext_find?
  intro wanted
  rw [find?_relabel, find?_insert, find?_insert, find?_relabel, apply_ite (Option.map (Production.relabel relabeling)),
    Option.map_some]

theorem relabel_erase (key : String) :
    (grammar.erase key).relabel relabeling = (grammar.relabel relabeling).erase key := by
  apply ext_find?
  intro wanted
  rw [find?_relabel, find?_erase, find?_erase, find?_relabel, apply_ite (Option.map (Production.relabel relabeling)),
    Option.map_none]

end Grammar

end GrammarCheck
