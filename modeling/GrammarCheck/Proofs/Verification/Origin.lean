import GrammarCheck.Proofs.Printing.Origin
import GrammarCheck.Proofs.Verification.Relabeling

/-!
# Verifying grammars at other places

Taking away the places of tokens is a relabeling. Verifying does not look at places, so it finds the same
in grammars that differ in nothing else.
-/

namespace GrammarCheck

/-- The places of tokens are taken away. -/
def Relabeling.atOrigin : Relabeling :=
  .unplacing Token.atOrigin (fun _ => rfl) (fun _ => rfl) fun _ => rfl

namespace Expression

mutual

theorem relabel_atOrigin : ∀ expression : Expression,
    expression.atOrigin.relabel .atOrigin = expression.relabel .atOrigin
  | .alternative branches => by rw [atOrigin, relabel, relabel, relabelAll_atOriginAll branches]
  | .sequence terms => by rw [atOrigin, relabel, relabel, relabelAll_atOriginAll terms]
  | .name _ => rfl
  | .literal _ => rfl
  | .enclosed _ _ body => by
    rw [atOrigin, relabel, relabel, relabel_atOrigin body]
    rfl
  | .malformed .. => rfl

theorem relabelAll_atOriginAll : ∀ expressions : List Expression,
    relabelAll .atOrigin (atOriginAll expressions) = relabelAll .atOrigin expressions
  | [] => rfl
  | expression :: rest => by
    rw [atOriginAll, relabelAll, relabelAll, relabel_atOrigin expression, relabelAll_atOriginAll rest]

end

end Expression

theorem Production.relabel_atOrigin (production : Production) :
    production.atOrigin.relabel .atOrigin = production.relabel .atOrigin := by
  obtain ⟨name, expression⟩ := production
  cases expression with
  | none => rfl
  | some expression =>
    exact congrArg (fun expression => Production.mk name.atOrigin (some expression)) expression.relabel_atOrigin

theorem Grammar.relabel_atOrigin (grammar : Grammar) :
    grammar.atOrigin.relabel .atOrigin = grammar.relabel .atOrigin := by
  apply ext_find?
  intro key
  have horigin : grammar.atOrigin.find? key = (grammar.find? key).map Production.atOrigin := by
    rw [find?, find?, atOrigin, List.find?_map, Option.map_map, Option.map_map]
    rfl
  rw [find?_relabel, find?_relabel, horigin, Option.map_map]
  congr 1
  funext production
  exact production.relabel_atOrigin

/-- Verifying finds the same in grammars that differ in the places of their tokens only. -/
theorem Grammar.map_unpositioned_verify_of_atOrigin {grammar other : Grammar}
    (horigin : grammar.atOrigin = other.atOrigin) (start : String) :
    (grammar.verify start).map Diagnostic.unpositioned = (other.verify start).map Diagnostic.unpositioned := by
  have hrelabel : grammar.relabel .atOrigin = other.relabel .atOrigin := by
    rw [← relabel_atOrigin, horigin, relabel_atOrigin]
  calc (grammar.verify start).map Diagnostic.unpositioned
    _ = (grammar.relabel .atOrigin).verify start := (verify_relabel .atOrigin grammar start).symm
    _ = (other.relabel .atOrigin).verify start := by rw [hrelabel]
    _ = (other.verify start).map Diagnostic.unpositioned := verify_relabel .atOrigin other start

end GrammarCheck
