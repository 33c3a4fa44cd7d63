import GrammarCheck.Text.Utf8.Lemmas

/-!
# Well-formed bytes are written text

Bytes without an ill-formed part are the bytes of a text, the one that they read as. The lemmas take
the bytes of one character off at a time, so that the machine is always between characters.
-/

namespace GrammarCheck.Utf8

/-- No part of the bytes is ill formed, when they are read from the state on. -/
def ReadsAll (state : State) (bytes : List UInt8) : Prop := (charactersFrom state bytes).all Option.isSome = true

/-! ### The next byte of a character -/

theorem ReadsAll.exists_last {collected least greatest : Nat} {bytes : List UInt8}
    (hreads : ReadsAll (.inside collected 0 least greatest) bytes) :
    ∃ byte rest, bytes = byte :: rest ∧ least ≤ byte.toNat ∧ byte.toNat ≤ greatest ∧ ReadsAll .start rest := by
  cases bytes with
  | nil => simp [ReadsAll, charactersFrom, State.finish] at hreads
  | cons byte rest =>
    by_cases hbyte : least ≤ byte.toNat ∧ byte.toNat ≤ greatest
    · refine ⟨byte, rest, rfl, hbyte.1, hbyte.2, ?_⟩
      simpa [ReadsAll, charactersFrom, step, hbyte] using hreads
    · simp [ReadsAll, charactersFrom, step, hbyte] at hreads

theorem ReadsAll.exists_inner {collected owed least greatest : Nat} {bytes : List UInt8}
    (hreads : ReadsAll (.inside collected (owed + 1) least greatest) bytes) :
    ∃ byte rest, bytes = byte :: rest ∧ least ≤ byte.toNat ∧ byte.toNat ≤ greatest ∧
      ReadsAll (.inside (64 * collected + (byte.toNat - 0x80)) owed 0x80 0xbf) rest := by
  cases bytes with
  | nil => simp [ReadsAll, charactersFrom, State.finish] at hreads
  | cons byte rest =>
    by_cases hbyte : least ≤ byte.toNat ∧ byte.toNat ≤ greatest
    · refine ⟨byte, rest, rfl, hbyte.1, hbyte.2, ?_⟩
      simpa [ReadsAll, charactersFrom, step, hbyte] using hreads
    · simp [ReadsAll, charactersFrom, step, hbyte] at hreads

/-! ### The bytes of a value -/

theorem toNat_ofNat_of_isValidChar {value : Nat} (hvalid : value.isValidChar) : (Char.ofNat value).val.toNat = value := by
  rw [Char.ofNat, dif_pos hvalid]
  rfl

theorem utf8EncodeChar_one {first : UInt8} (hfirst : first.toNat < 0x80) :
    String.utf8EncodeChar (Char.ofNat first.toNat) = [first] := by
  have hvalue : (Char.ofNat first.toNat).val.toNat = first.toNat := toNat_ofNat_of_isValidChar (.inl (by omega))
  rw [String.utf8EncodeChar, hvalue, if_pos (by omega), UInt8.ofNat_toNat]

theorem utf8EncodeChar_two {first second : UInt8} (hfirst : 0xc2 ≤ first.toNat ∧ first.toNat < 0xe0)
    (hsecond : 0x80 ≤ second.toNat ∧ second.toNat ≤ 0xbf) :
    String.utf8EncodeChar (Char.ofNat (64 * (first.toNat - 0xc0) + (second.toNat - 0x80))) = [first, second] := by
  generalize hsum : 64 * (first.toNat - 0xc0) + (second.toNat - 0x80) = value
  have hvalue : (Char.ofNat value).val.toNat = value := toNat_ofNat_of_isValidChar (.inl (by omega))
  rw [String.utf8EncodeChar, hvalue, if_neg (by omega), if_pos (by omega),
    show value / 64 % 0x20 + 0xc0 = first.toNat by omega, show value % 0x40 + 0x80 = second.toNat by omega,
    UInt8.ofNat_toNat, UInt8.ofNat_toNat]

theorem utf8EncodeChar_three {first second third : UInt8} (hfirst : 0xe0 ≤ first.toNat ∧ first.toNat < 0xf0)
    (hsecond : 0x80 ≤ second.toNat ∧ second.toNat ≤ 0xbf) (hthird : 0x80 ≤ third.toNat ∧ third.toNat ≤ 0xbf)
    (hlong : first.toNat = 0xe0 → 0xa0 ≤ second.toNat) (hsurrogate : first.toNat = 0xed → second.toNat ≤ 0x9f) :
    String.utf8EncodeChar
        (Char.ofNat (64 * (64 * (first.toNat - 0xe0) + (second.toNat - 0x80)) + (third.toNat - 0x80))) =
      [first, second, third] := by
  generalize hsum : 64 * (64 * (first.toNat - 0xe0) + (second.toNat - 0x80)) + (third.toNat - 0x80) = value
  have hvalid : value < 0xd800 ∨ 0xdfff < value ∧ value < 0x110000 := by omega
  have hvalue : (Char.ofNat value).val.toNat = value := toNat_ofNat_of_isValidChar hvalid
  rw [String.utf8EncodeChar, hvalue, if_neg (by omega), if_neg (by omega), if_pos (by omega),
    show value / 4096 % 0x10 + 0xe0 = first.toNat by omega, show value / 64 % 0x40 + 0x80 = second.toNat by omega,
    show value % 0x40 + 0x80 = third.toNat by omega, UInt8.ofNat_toNat, UInt8.ofNat_toNat, UInt8.ofNat_toNat]

theorem utf8EncodeChar_four {first second third fourth : UInt8} (hfirst : 0xf0 ≤ first.toNat ∧ first.toNat < 0xf5)
    (hsecond : 0x80 ≤ second.toNat ∧ second.toNat ≤ 0xbf) (hthird : 0x80 ≤ third.toNat ∧ third.toNat ≤ 0xbf)
    (hfourth : 0x80 ≤ fourth.toNat ∧ fourth.toNat ≤ 0xbf)
    (hlong : first.toNat = 0xf0 → 0x90 ≤ second.toNat) (hlarge : first.toNat = 0xf4 → second.toNat ≤ 0x8f) :
    String.utf8EncodeChar
        (Char.ofNat (64 * (64 * (64 * (first.toNat - 0xf0) + (second.toNat - 0x80)) + (third.toNat - 0x80)) +
          (fourth.toNat - 0x80))) =
      [first, second, third, fourth] := by
  generalize hsum : 64 * (64 * (64 * (first.toNat - 0xf0) + (second.toNat - 0x80)) + (third.toNat - 0x80)) +
    (fourth.toNat - 0x80) = value
  have hvalue : (Char.ofNat value).val.toNat = value := toNat_ofNat_of_isValidChar (.inr (by omega))
  rw [String.utf8EncodeChar, hvalue, if_neg (by omega), if_neg (by omega), if_neg (by omega),
    show value / 262144 % 0x08 + 0xf0 = first.toNat by omega,
    show value / 4096 % 0x40 + 0x80 = second.toNat by omega,
    show value / 64 % 0x40 + 0x80 = third.toNat by omega, show value % 0x40 + 0x80 = fourth.toNat by omega,
    UInt8.ofNat_toNat, UInt8.ofNat_toNat, UInt8.ofNat_toNat, UInt8.ofNat_toNat]

/-! ### The next character -/

/-- The cases are those of the first byte, which fixes the number of bytes. -/
theorem ReadsAll.exists_char {first : UInt8} {following : List UInt8} (hreads : ReadsAll .start (first :: following)) :
    ∃ c later, first :: following = String.utf8EncodeChar c ++ later ∧ ReadsAll .start later := by
  have hlead : ((lead first.toNat).1 ++ charactersFrom (lead first.toNat).2 following).all Option.isSome = true :=
    hreads
  rcases Nat.lt_or_ge first.toNat 0x80 with hone | hone
  · refine ⟨Char.ofNat first.toNat, following, by rw [utf8EncodeChar_one hone]; rfl, ?_⟩
    simpa [ReadsAll, lead, hone] using hlead
  rcases Nat.lt_or_ge first.toNat 0xc2 with hnone | hnone
  · rw [lead, if_neg (by omega), if_pos hnone] at hlead
    simp at hlead
  rcases Nat.lt_or_ge first.toNat 0xe0 with htwo | htwo
  · rw [lead_of_lt_e0 hnone htwo, List.nil_append] at hlead
    obtain ⟨second, later, rfl, hleast, hgreatest, hlater⟩ := ReadsAll.exists_last hlead
    have hencode := utf8EncodeChar_two ⟨hnone, htwo⟩ ⟨hleast, hgreatest⟩
    exact ⟨_, later, congrArg (· ++ later) hencode.symm, hlater⟩
  rcases Nat.lt_or_ge first.toNat 0xf0 with hthree | hthree
  · rw [lead_of_lt_f0 htwo hthree, List.nil_append] at hlead
    obtain ⟨second, _, rfl, hleast, hgreatest, hsecond⟩ := ReadsAll.exists_inner hlead
    obtain ⟨third, later, rfl, hthird, hthird', hlater⟩ := ReadsAll.exists_last hsecond
    have hbounds : 0x80 ≤ second.toNat ∧ second.toNat ≤ 0xbf := by grind
    have hencode := utf8EncodeChar_three ⟨htwo, hthree⟩ hbounds ⟨hthird, hthird'⟩ (by grind) (by grind)
    exact ⟨_, later, congrArg (· ++ later) hencode.symm, hlater⟩
  rcases Nat.lt_or_ge first.toNat 0xf5 with hfour | hfour
  · rw [lead_of_lt_f5 hthree hfour, List.nil_append] at hlead
    obtain ⟨second, _, rfl, hleast, hgreatest, hsecond⟩ := ReadsAll.exists_inner hlead
    obtain ⟨third, _, rfl, hthird, hthird', hinner⟩ := ReadsAll.exists_inner hsecond
    obtain ⟨fourth, later, rfl, hfourth, hfourth', hlater⟩ := ReadsAll.exists_last hinner
    have hbounds : 0x80 ≤ second.toNat ∧ second.toNat ≤ 0xbf := by grind
    have hencode := utf8EncodeChar_four ⟨hthree, hfour⟩ hbounds ⟨hthird, hthird'⟩ ⟨hfourth, hfourth'⟩
      (by grind) (by grind)
    exact ⟨_, later, congrArg (· ++ later) hencode.symm, hlater⟩
  · have hlead' : lead first.toNat = ([none], .start) := by
      rw [lead, if_neg (by omega), if_neg (by omega), if_neg (by omega), if_neg (by omega), if_neg (by omega)]
    rw [hlead'] at hlead
    simp at hlead

/-! ### Well-formed bytes -/

/-- By induction on the number of bytes, as each character takes at least one. -/
theorem ReadsAll.exists_characters {bytes : List UInt8} (hreads : ReadsAll .start bytes) :
    ∃ characters : List Char, bytes = characters.flatMap String.utf8EncodeChar := by
  induction hlength : bytes.length using Nat.strongRecOn generalizing bytes with
  | _ length ih =>
    cases bytes with
    | nil => exact ⟨[], rfl⟩
    | cons first following =>
      obtain ⟨c, later, hbytes, hlater⟩ := hreads.exists_char
      have hshorter : later.length < length := by
        rw [← hlength, hbytes, List.length_append]
        exact Nat.lt_add_of_pos_left (String.length_utf8EncodeChar c ▸ Char.utf8Size_pos c)
      obtain ⟨characters, hcharacters⟩ := ih later.length hshorter hlater rfl
      refine ⟨c :: characters, ?_⟩
      rw [hbytes, hcharacters, List.flatMap_cons]

theorem encode_ofList (characters : List Char) :
    encode (String.ofList characters) = characters.flatMap String.utf8EncodeChar := by
  rw [encode, String.toList_ofList]

theorem isValid_iff_exists_encode (bytes : List UInt8) : isValid bytes = true ↔ ∃ text, bytes = encode text := by
  constructor
  · intro hvalid
    obtain ⟨characters, hcharacters⟩ := ReadsAll.exists_characters hvalid
    exact ⟨String.ofList characters, hcharacters.trans (encode_ofList characters).symm⟩
  · rintro ⟨text, rfl⟩
    exact isValid_encode text

theorem decode?_eq_some_iff (bytes : List UInt8) (text : String) : decode? bytes = some text ↔ bytes = encode text := by
  constructor
  · intro hdecode
    obtain ⟨hvalid, hlossy⟩ := Option.ite_none_right_eq_some.1 hdecode
    obtain ⟨written, rfl⟩ := (isValid_iff_exists_encode bytes).1 hvalid
    rw [decodeLossy_encode, Option.some.injEq] at hlossy
    rw [hlossy]
  · rintro rfl
    exact decode?_encode text

/-! ### The bytes of longer texts -/

theorem encode_append (left right : String) : encode (left ++ right) = encode left ++ encode right := by
  rw [encode, String.toList_append, List.flatMap_append, encode, encode]

theorem encode_join (texts : List String) : encode (String.join texts) = texts.flatMap encode := by
  rw [encode, String.toList_join, List.flatMap_assoc]
  rfl

theorem encode_subset_intercalate (separator : String) {text : String} {texts : List String} (htext : text ∈ texts) :
    encode text ⊆ encode (separator.intercalate texts) := by
  induction texts with
  | nil => contradiction
  | cons first rest ih =>
    by_cases hrest : rest = []
    · rw [hrest, List.mem_singleton] at htext
      rw [hrest, String.intercalate_singleton, htext]
      exact List.Subset.refl _
    · rw [String.intercalate_cons_of_ne_nil hrest, encode_append, encode_append]
      rcases List.mem_cons.1 htext with rfl | hlater
      · exact List.subset_append_of_subset_left _ (List.subset_append_left _ _)
      · exact List.subset_append_of_subset_right _ (ih hlater)

theorem not_mem_encode_intercalate {byte : UInt8} {separator : String} {texts : List String}
    (hseparator : byte ∉ encode separator) (htexts : ∀ text ∈ texts, byte ∉ encode text) :
    byte ∉ encode (separator.intercalate texts) := by
  induction texts with
  | nil => exact List.not_mem_nil
  | cons first rest ih =>
    obtain ⟨hfirst, hothers⟩ := List.forall_mem_cons.1 htexts
    by_cases hrest : rest = []
    · rwa [hrest, String.intercalate_singleton]
    · rw [String.intercalate_cons_of_ne_nil hrest, encode_append, encode_append, List.mem_append, List.mem_append]
      simp only [hfirst, hseparator, ih hothers, or_self, not_false_eq_true]

/-! ### Bytes of one-byte characters -/

/-- Only a character of one byte has a byte below `0x80`. -/
theorem toNat_eq_of_mem_utf8EncodeChar {byte : UInt8} (hascii : byte.toNat < 0x80) {c : Char}
    (hmem : byte ∈ String.utf8EncodeChar c) : byte.toNat = c.toNat := by
  have hvalid : c.toNat < 0xd800 ∨ (0xdfff < c.toNat ∧ c.toNat < 0x110000) := c.valid
  simp only [String.utf8EncodeChar, show c.val.toNat = c.toNat from rfl] at hmem
  generalize c.toNat = value at hmem hvalid
  have hhigh (part : Nat) (hleast : 0x80 ≤ part) (hgreatest : part < 256) : byte ≠ UInt8.ofNat part := by
    rintro rfl
    rw [UInt8.toNat_ofNat_of_lt' hgreatest] at hascii
    omega
  split at hmem
  · rw [List.mem_singleton.1 hmem]
    exact UInt8.toNat_ofNat_of_lt' (Nat.lt_of_le_of_lt ‹value ≤ 127› (by decide))
  · exfalso
    split at hmem
    · simp only [List.mem_cons, List.not_mem_nil, or_false] at hmem
      rcases hmem with hbyte | hbyte <;> exact hhigh _ (by omega) (by omega) hbyte
    · split at hmem
      · simp only [List.mem_cons, List.not_mem_nil, or_false] at hmem
        rcases hmem with hbyte | hbyte | hbyte <;> exact hhigh _ (by omega) (by omega) hbyte
      · simp only [List.mem_cons, List.not_mem_nil, or_false] at hmem
        rcases hmem with hbyte | hbyte | hbyte | hbyte <;> exact hhigh _ (by omega) (by omega) hbyte

theorem mem_toList_of_mem_encode {byte : UInt8} (hascii : byte.toNat < 0x80) {text : String}
    (hmem : byte ∈ encode text) : Char.ofNat byte.toNat ∈ text.toList := by
  obtain ⟨c, hc, hbyte⟩ := List.mem_flatMap.1 hmem
  rwa [toNat_eq_of_mem_utf8EncodeChar hascii hbyte, Char.ofNat_toNat]

end GrammarCheck.Utf8
