import Mathlib.Data.List.Basic

/-!
# Lines of a text

A text that is written in lines, with a newline after each of them, falls apart into the same lines again
if no newline stands in them. There is none where no control character stands.
-/

namespace GrammarCheck

/-! ### Lines -/

/-- The text is the lines in their order, each with the newline that ends it. -/
structure HasLines (text : String) (lines : List String) : Prop where
  text_eq : text = String.join (lines.map (· ++ "\n"))
  newline_not_mem : ∀ line ∈ lines, '\n' ∉ line.toList

/-- What stands before the first occurrence of a character is determined, and so is what stands after it. -/
theorem append_cons_inj_of_not_mem {stop : Char} {first first' rest rest' : List Char} (hfirst : stop ∉ first)
    (hfirst' : stop ∉ first') (heq : first ++ stop :: rest = first' ++ stop :: rest') :
    first = first' ∧ rest = rest' := by
  induction first generalizing first' with
  | nil =>
    cases first' with
    | nil => exact ⟨rfl, (List.cons.inj heq).2⟩
    | cons c later' =>
      obtain ⟨rfl, _⟩ := List.cons.inj heq
      exact absurd List.mem_cons_self hfirst'
  | cons c later ih =>
    cases first' with
    | nil =>
      obtain ⟨rfl, _⟩ := List.cons.inj heq
      exact absurd List.mem_cons_self hfirst
    | cons c' later' =>
      obtain ⟨rfl, hlater⟩ := List.cons.inj heq
      obtain ⟨rfl, hrest⟩ := ih (List.not_mem_of_not_mem_cons hfirst) (List.not_mem_of_not_mem_cons hfirst') hlater
      exact ⟨rfl, hrest⟩

theorem toList_join_cons_line (line : String) (lines : List String) :
    (String.join ((line :: lines).map (· ++ "\n"))).toList =
      line.toList ++ '\n' :: (String.join (lines.map (· ++ "\n"))).toList := by
  rw [List.map_cons, String.join_cons, String.toList_append, String.toList_append, List.append_assoc]
  rfl

theorem HasLines.eq_empty_iff {text : String} {lines : List String} (hlines : HasLines text lines) :
    text = "" ↔ lines = [] := by
  rw [hlines.text_eq]
  cases lines with
  | nil => exact iff_of_true rfl rfl
  | cons line rest =>
    refine iff_of_false ?_ (List.cons_ne_nil _ _)
    intro hempty
    have hnil : ([] : List Char) = _ := (congrArg String.toList hempty).symm.trans (toList_join_cons_line line rest)
    exact List.append_ne_nil_of_right_ne_nil _ (List.cons_ne_nil _ _) hnil.symm

/-- A text has lines in one way only. -/
theorem HasLines.unique {text : String} {lines lines' : List String} (hlines : HasLines text lines)
    (hlines' : HasLines text lines') : lines = lines' := by
  induction lines generalizing text lines' with
  | nil => exact (hlines'.eq_empty_iff.1 (hlines.eq_empty_iff.2 rfl)).symm
  | cons line rest ih =>
    cases lines' with
    | nil => exact hlines.eq_empty_iff.1 (hlines'.eq_empty_iff.2 rfl)
    | cons line' rest' =>
      obtain ⟨hline, hrest⟩ := List.forall_mem_cons.1 hlines.newline_not_mem
      obtain ⟨hline', hrest'⟩ := List.forall_mem_cons.1 hlines'.newline_not_mem
      have htext := congrArg String.toList (hlines.text_eq.symm.trans hlines'.text_eq)
      rw [toList_join_cons_line, toList_join_cons_line] at htext
      obtain ⟨hsame, hlater⟩ := append_cons_inj_of_not_mem hline hline' htext
      rw [String.toList_inj.1 hsame, ih ⟨rfl, hrest⟩ ⟨String.toList_inj.1 hlater, hrest'⟩]

/-! ### Control characters -/

/-- The characters below U+0020, newlines among them, and U+007F. -/
def IsControl (c : Char) : Prop := c.toNat < 0x20 ∨ c.toNat = 0x7f

instance (c : Char) : Decidable (IsControl c) := inferInstanceAs (Decidable (c.toNat < 0x20 ∨ c.toNat = 0x7f))

def NoControls (text : String) : Prop := ∀ c ∈ text.toList, ¬IsControl c

-- The instance is given because there is another one that looks at all characters there are.
instance (text : String) : Decidable (NoControls text) := List.decidableBAll (fun c => ¬IsControl c) text.toList

@[simp] theorem noControls_append {first second : String} :
    NoControls (first ++ second) ↔ NoControls first ∧ NoControls second := by
  simp only [NoControls, String.toList_append, List.forall_mem_append]

/-- Texts that are put into other texts stand there as they are. -/
@[simp] theorem noControls_toString {text : String} : NoControls (toString text) ↔ NoControls text := Iff.rfl

theorem NoControls.newline_not_mem {text : String} (htext : NoControls text) : '\n' ∉ text.toList :=
  fun hmem => htext '\n' hmem (by decide)

end GrammarCheck
