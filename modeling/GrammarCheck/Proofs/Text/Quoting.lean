import GrammarCheck.Proofs.Text.Lines
import GrammarCheck.Text.Quoted

/-!
# Reading quoted text

Quoted text can be read back: what is written for a character says which one it is and where it ends. So
texts that are quoted in the same way are the same. A quoted text has no control characters.
-/

namespace GrammarCheck

/-! ### Numerals -/

/-- By induction on the number, which each digit but the first makes smaller. -/
theorem exists_of_mem_toDigits {base : Nat} (hbase : 1 < base) {number : Nat} {c : Char}
    (hmem : c ∈ Nat.toDigits base number) : ∃ digit, c = Nat.digitChar digit := by
  induction number using Nat.strongRecOn with
  | _ number ih =>
    rw [Nat.toDigits_eq_if hbase] at hmem
    split at hmem
    · exact ⟨number, List.mem_singleton.1 hmem⟩
    · next hlarge =>
      rcases List.mem_append.1 hmem with hfirst | hlast
      · exact ih (number / base) (Nat.div_lt_self (by omega) hbase) hfirst
      · exact ⟨number % base, List.mem_singleton.1 hlast⟩

theorem digitChar_not_isControl (digit : Nat) : ¬IsControl (Nat.digitChar digit) := by
  by_cases hsmall : digit < 16
  · revert digit
    decide
  · have hstar : Nat.digitChar digit = '*' := by
      unfold Nat.digitChar
      iterate 16 rw [if_neg (by omega)]
    rw [hstar]
    decide

theorem noControls_toDigits {base : Nat} (hbase : 1 < base) (number : Nat) :
    ∀ c ∈ Nat.toDigits base number, ¬IsControl c := by
  intro c hmem
  obtain ⟨digit, rfl⟩ := exists_of_mem_toDigits hbase hmem
  exact digitChar_not_isControl digit

@[simp] theorem noControls_repr (number : Nat) : NoControls number.repr := by
  rw [NoControls, Nat.toList_repr]
  exact noControls_toDigits (by decide) number

theorem toDigits_ten_injective : Function.Injective (Nat.toDigits 10) := by
  intro number other heq
  calc
    number = Nat.ofDigitChars 10 (Nat.toDigits 10 number) 0 := Nat.ofDigitChars_ten_toDigits.symm
    _ = Nat.ofDigitChars 10 (Nat.toDigits 10 other) 0 := by rw [heq]
    _ = other := Nat.ofDigitChars_ten_toDigits

namespace Quoted

/-- The value of a hexadecimal digit. -/
def hexValue (c : Char) : Nat := if c.isDigit then c.toNat - 0x30 else c.toNat - 0x57

/-- The number that hexadecimal digits stand for. -/
def ofHex (digits : List Char) : Nat := digits.foldl (fun value c => 16 * value + hexValue c) 0

theorem hexValue_digitChar : ∀ digit < 16, hexValue (Nat.digitChar digit) = digit := by decide

theorem ofHex_concat (digits : List Char) (c : Char) : ofHex (digits ++ [c]) = 16 * ofHex digits + hexValue c := by
  rw [ofHex, List.foldl_append]
  rfl

theorem ofHex_toDigits (number : Nat) : ofHex (Nat.toDigits 16 number) = number := by
  induction number using Nat.strongRecOn with
  | _ number ih =>
    rw [Nat.toDigits_eq_if (by decide)]
    split
    · next hsmall => exact (ofHex_concat [] _).trans (by rw [hexValue_digitChar number hsmall]; exact Nat.zero_add _)
    · next hlarge =>
      rw [ofHex_concat, ih (number / 16) (by omega), hexValue_digitChar _ (Nat.mod_lt _ (by decide))]
      exact Nat.div_add_mod number 16

/-! ### Single characters -/

/-- Reads what is written for one character between the quotes, and returns what is left. -/
def unescape? : List Char → Option (Char × List Char)
  | '\\' :: 'u' :: '\x7b' :: rest =>
    some (Char.ofNat (ofHex (rest.takeWhile (· != '\x7d'))), (rest.dropWhile (· != '\x7d')).tail)
  | '\\' :: '0' :: rest => some ('\x00', rest)
  | '\\' :: 't' :: rest => some ('\t', rest)
  | '\\' :: 'n' :: rest => some ('\n', rest)
  | '\\' :: 'r' :: rest => some ('\r', rest)
  | '\\' :: c :: rest => some (c, rest)
  | c :: rest => some (c, rest)
  | [] => none

theorem ne_closing_of_mem_toDigits {number : Nat} {c : Char} (hmem : c ∈ Nat.toDigits 16 number) :
    (c != '\x7d') = true := by
  obtain ⟨digit, rfl⟩ := exists_of_mem_toDigits (by decide) hmem
  exact bne_iff_ne.2 (Nat.digitChar_ne '\x7d' rfl)

/-- What is written for a character is read as the character, whatever follows it. -/
theorem unescape?_escape (c : Char) (rest : List Char) : unescape? (escape c ++ rest) = some (c, rest) := by
  unfold escape
  split
  · next hquote => rw [hquote]; rfl
  split
  · next hbackslash => rw [hbackslash]; rfl
  split
  · next hnull => rw [hnull]; rfl
  split
  · next htab => rw [htab]; rfl
  split
  · next hnewline => rw [hnewline]; rfl
  split
  · next hreturn => rw [hreturn]; rfl
  split
  · have hall : ∀ digit ∈ Nat.toDigits 16 c.toNat, (digit != '\x7d') = true := fun _ => ne_closing_of_mem_toDigits
    simp only [List.append_assoc, List.cons_append, List.nil_append, unescape?]
    rw [List.takeWhile_append_of_pos hall, List.dropWhile_append_of_pos hall, List.takeWhile_cons_of_neg (by simp),
      List.dropWhile_cons_of_neg (by simp), List.append_nil, ofHex_toDigits, Char.ofNat_toNat]
    rfl
  · next hbackslash _ _ _ _ _ =>
    rw [List.singleton_append]
    unfold unescape?
    split <;> simp_all

theorem escape_ne_nil (c : Char) : escape c ≠ [] := by
  unfold escape
  repeat' split
  all_goals exact List.cons_ne_nil _ _

/-! ### Whole texts -/

theorem flatMap_escape_injective : Function.Injective (List.flatMap escape) := by
  intro characters others heq
  induction characters generalizing others with
  | nil =>
    cases others with
    | nil => rfl
    | cons other later => exact absurd heq.symm (List.append_ne_nil_of_left_ne_nil (escape_ne_nil other) _)
  | cons c rest ih =>
    cases others with
    | nil => exact absurd heq (List.append_ne_nil_of_left_ne_nil (escape_ne_nil c) _)
    | cons other later =>
      have hread := congrArg unescape? heq
      rw [List.flatMap_cons, List.flatMap_cons, unescape?_escape, unescape?_escape] at hread
      obtain ⟨rfl, hrest⟩ := Prod.mk.inj (Option.some.inj hread)
      rw [ih hrest]

theorem quote_injective : Function.Injective quote := by
  intro text other heq
  have hlist := (List.cons.inj (String.ofList_inj.1 heq)).2
  exact String.toList_inj.1 (flatMap_escape_injective (List.append_cancel_right hlist))

/-! ### Control characters -/

theorem needsCodePoint_of_isControl {c : Char} (hcontrol : IsControl c) : needsCodePoint c = true := by
  rcases hcontrol with hlow | hdelete
  · simp [needsCodePoint, hlow]
  · have hunprintable : Unicode.isUnprintable c = true := by
      rw [Unicode.isUnprintable, hdelete]
      rfl
    simp [needsCodePoint, hunprintable]

theorem noControls_escape (c : Char) : NoControls (String.ofList (escape c)) := by
  unfold escape
  iterate 6
    split
    · decide
  split
  · rw [String.ofList_append, String.ofList_append, noControls_append, noControls_append]
    refine ⟨⟨by decide, ?_⟩, by decide⟩
    rw [NoControls, String.toList_ofList]
    exact noControls_toDigits (by decide) c.toNat
  · next hshown =>
    rw [NoControls, String.toList_ofList]
    exact List.forall_mem_singleton.2 fun hcontrol => hshown (needsCodePoint_of_isControl hcontrol)

@[simp] theorem noControls_quote (text : String) : NoControls (quote text) := by
  rw [NoControls, quote, String.toList_ofList, List.forall_mem_cons, List.forall_mem_append]
  refine ⟨by decide, ?_, List.forall_mem_singleton.2 (by decide)⟩
  intro written hmem
  obtain ⟨c, _, hwritten⟩ := List.mem_flatMap.1 hmem
  exact noControls_escape c written (by rwa [String.toList_ofList])

end Quoted

end GrammarCheck
