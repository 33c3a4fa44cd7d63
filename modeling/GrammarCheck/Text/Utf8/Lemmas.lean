import GrammarCheck.Text.Utf8.Basic
/-!
# Reading what was written

The bytes of a text are well formed and read as the text.
-/

namespace GrammarCheck.Utf8

/-! ### Single steps of the machine -/

theorem lead_of_lt_e0 {byte : Nat} (hleast : 0xc2 ≤ byte) (hgreatest : byte < 0xe0) :
    lead byte = ([], .inside (byte - 0xc0) 0 0x80 0xbf) := by
  rw [lead, if_neg (by omega), if_neg (by omega), if_pos hgreatest]

theorem lead_of_lt_f0 {byte : Nat} (hleast : 0xe0 ≤ byte) (hgreatest : byte < 0xf0) :
    lead byte = ([], .inside (byte - 0xe0) 1 (if byte = 0xe0 then 0xa0 else 0x80)
      (if byte = 0xed then 0x9f else 0xbf)) := by
  rw [lead, if_neg (by omega), if_neg (by omega), if_neg (by omega), if_pos hgreatest]

theorem lead_of_lt_f5 {byte : Nat} (hleast : 0xf0 ≤ byte) (hgreatest : byte < 0xf5) :
    lead byte = ([], .inside (byte - 0xf0) 2 (if byte = 0xf0 then 0x90 else 0x80)
      (if byte = 0xf4 then 0x8f else 0xbf)) := by
  rw [lead, if_neg (by omega), if_neg (by omega), if_neg (by omega), if_neg (by omega), if_pos hgreatest]

theorem step_last {collected least greatest byte : Nat} (hleast : least ≤ byte)
    (hgreatest : byte ≤ greatest) :
    step (.inside collected 0 least greatest) byte =
      ([some (Char.ofNat (64 * collected + (byte - 0x80)))], .start) := by
  simp [step, hleast, hgreatest]

theorem step_inner {collected owed least greatest byte : Nat} (hleast : least ≤ byte)
    (hgreatest : byte ≤ greatest) :
    step (.inside collected (owed + 1) least greatest) byte =
      ([], .inside (64 * collected + (byte - 0x80)) owed 0x80 0xbf) := by
  simp [step, hleast, hgreatest]

/-! ### Characters and texts -/

/-- The bytes of a character complete it, whatever follows them. -/
theorem charactersFrom_start_encodeChar (c : Char) (rest : List UInt8) :
    charactersFrom .start (String.utf8EncodeChar c ++ rest) = some c :: charactersFrom .start rest := by
  have hscalar : c.toNat < 0xd800 ∨ (0xdfff < c.toNat ∧ c.toNat < 0x110000) := c.valid
  have hvalue : Char.ofNat c.toNat = c := Char.ofNat_toNat c
  simp only [String.utf8EncodeChar, show c.val.toNat = c.toNat from rfl]
  generalize c.toNat = value at hscalar hvalue
  subst hvalue
  have hbyte (n : Nat) (hlt : n < 256) : (UInt8.ofNat n).toNat = n := UInt8.toNat_ofNat_of_lt' hlt
  split
  · simp [charactersFrom, hbyte value (by omega), step, lead, show value < 0x80 by omega]
  · split
    · simp only [List.cons_append, List.nil_append, charactersFrom]
      rw [hbyte _ (by omega), hbyte _ (by omega), step, lead_of_lt_e0 (by omega) (by omega),
        step_last (by omega) (by omega),
        show 64 * (value / 64 % 0x20 + 0xc0 - 0xc0) + (value % 0x40 + 0x80 - 0x80) = value by omega]
      rfl
    · split
      · simp only [List.cons_append, List.nil_append, charactersFrom]
        rw [hbyte _ (by omega), hbyte _ (by omega), hbyte _ (by omega), step,
          lead_of_lt_f0 (by omega) (by omega),
          step_inner (by split <;> omega) (by split <;> omega), step_last (by omega) (by omega),
          show 64 * (64 * (value / 4096 % 0x10 + 0xe0 - 0xe0) + (value / 64 % 0x40 + 0x80 - 0x80)) +
            (value % 0x40 + 0x80 - 0x80) = value by omega]
        rfl
      · simp only [List.cons_append, List.nil_append, charactersFrom]
        rw [hbyte _ (by omega), hbyte _ (by omega), hbyte _ (by omega), hbyte _ (by omega), step,
          lead_of_lt_f5 (by omega) (by omega),
          step_inner (by split <;> omega) (by split <;> omega), step_inner (by omega) (by omega),
          step_last (by omega) (by omega),
          show 64 * (64 * (64 * (value / 262144 % 0x08 + 0xf0 - 0xf0) + (value / 4096 % 0x40 + 0x80 - 0x80)) +
            (value / 64 % 0x40 + 0x80 - 0x80)) + (value % 0x40 + 0x80 - 0x80) = value by omega]
        rfl

/-- The bytes of a text complete its characters and nothing else. -/
theorem characters_encode (text : String) : characters (encode text) = text.toList.map some := by
  unfold characters encode
  induction text.toList with
  | nil => rfl
  | cons c rest ih => rw [List.flatMap_cons, charactersFrom_start_encodeChar, ih, List.map_cons]

@[simp] theorem isValid_encode (text : String) : isValid (encode text) = true := by
  simp [isValid, characters_encode]

@[simp] theorem decodeLossy_encode (text : String) : decodeLossy (encode text) = text := by
  rw [decodeLossy, characters_encode, List.map_map,
    show ((fun character : Option Char => character.getD '\uFFFD') ∘ some) = id from rfl, List.map_id,
    String.ofList_toList]

@[simp] theorem decode?_encode (text : String) : decode? (encode text) = some text := by
  simp [decode?]

end GrammarCheck.Utf8
