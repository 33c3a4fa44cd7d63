import GrammarCheck.Proofs.Text.Utf8
import Mathlib.Data.List.TakeWhile

/-!
# Ill-formed bytes replaced

Recoded bytes are those of the text that bytes read as, so that each ill-formed part becomes U+FFFD. A
byte below `0x80` is a character wherever it stands, and the machine is between characters after it. So
recoding goes on anew after each such byte, and it neither adds one nor loses one.
-/

namespace GrammarCheck.Utf8

/-- The bytes with U+FFFD for each maximal subpart of ill-formed bytes. -/
def recode (bytes : List UInt8) : List UInt8 := encode (decodeLossy bytes)

/-! ### States that the machine reaches -/

/-- The bits collected make a character that is not of one byte, whatever the bytes are that are owed. -/
def Completes : Nat → Nat → Prop
  | 0, value => 0x80 ≤ value ∧ value.isValidChar
  | owed + 1, collected => ∀ byte, 0x80 ≤ byte → byte ≤ 0xbf → Completes owed (64 * collected + (byte - 0x80))

/-- Within a character, no byte below `0x80` continues it, and those that do make one of several bytes. -/
def State.Sound : State → Prop
  | .start => True
  | .inside collected owed least greatest => 0x80 ≤ least ∧
      ∀ byte, least ≤ byte → byte ≤ greatest → Completes owed (64 * collected + (byte - 0x80))

variable {state : State}

theorem sound_start : State.start.Sound := trivial

/-- The cases are those of the first byte, which fixes the number of bytes. -/
theorem sound_lead (byte : Nat) : (lead byte).2.Sound := by
  rcases Nat.lt_or_ge byte 0x80 with hone | hone
  · rw [lead, if_pos hone]
    trivial
  rcases Nat.lt_or_ge byte 0xc2 with hnone | hnone
  · rw [lead, if_neg (by omega), if_pos hnone]
    trivial
  rcases Nat.lt_or_ge byte 0xe0 with htwo | htwo
  · rw [lead_of_lt_e0 hnone htwo]
    refine ⟨Nat.le_refl _, fun second hleast hgreatest => ?_⟩
    simp only [Completes, Nat.isValidChar]
    omega
  rcases Nat.lt_or_ge byte 0xf0 with hthree | hthree
  · rw [lead_of_lt_f0 htwo hthree]
    refine ⟨by split <;> omega, fun second hleast hgreatest third hthird hthird' => ?_⟩
    simp only [Completes, Nat.isValidChar]
    split at hleast <;> split at hgreatest <;> omega
  rcases Nat.lt_or_ge byte 0xf5 with hfour | hfour
  · rw [lead_of_lt_f5 hthree hfour]
    refine ⟨by split <;> omega, fun second hleast hgreatest third hthird hthird' fourth hfourth hfourth' => ?_⟩
    simp only [Completes, Nat.isValidChar]
    split at hleast <;> split at hgreatest <;> omega
  · rw [lead, if_neg (by omega), if_neg (by omega), if_neg (by omega), if_neg (by omega), if_neg (by omega)]
    trivial

theorem step_outside {collected owed least greatest byte : Nat} (hbyte : ¬(least ≤ byte ∧ byte ≤ greatest)) :
    step (.inside collected owed least greatest) byte = (none :: (lead byte).1, (lead byte).2) := by
  simp [step, hbyte]

theorem State.Sound.step (hsound : state.Sound) (byte : Nat) : (step state byte).2.Sound := by
  cases state with
  | start => exact sound_lead byte
  | inside collected owed least greatest =>
    by_cases hbyte : least ≤ byte ∧ byte ≤ greatest
    · have hcompletes := hsound.2 byte hbyte.1 hbyte.2
      cases owed with
      | zero =>
        rw [step_last hbyte.1 hbyte.2]
        trivial
      | succ owed =>
        rw [step_inner hbyte.1 hbyte.2]
        exact ⟨Nat.le_refl _, hcompletes⟩
    · rw [step_outside hbyte]
      exact sound_lead byte

theorem lead_eq_of_ge {byte : Nat} (hhigh : 0x80 ≤ byte) : (lead byte).1 = [] ∨ (lead byte).1 = [none] := by
  rw [lead, if_neg (by omega)]
  repeat' split
  all_goals first | exact .inl rfl | exact .inr rfl

theorem toNat_eq_of_mem_lead {byte : Nat} {c : Char} (hmem : some c ∈ (lead byte).1) : c.toNat = byte := by
  rcases Nat.lt_or_ge byte 0x80 with hascii | hhigh
  · have hvalid : byte.isValidChar := .inl (by omega)
    rw [lead, if_pos hascii] at hmem
    have heq : c = Char.ofNat byte := Option.some.inj (List.mem_singleton.1 hmem)
    rw [heq]
    exact toNat_ofNat_of_isValidChar hvalid
  · rcases lead_eq_of_ge hhigh with hnil | hnone
    · rw [hnil] at hmem
      contradiction
    · rw [hnone] at hmem
      exact absurd (List.mem_singleton.1 hmem) (Option.some_ne_none c)

/-- A character below `0x80` is completed by its own byte only. -/
theorem State.Sound.eq_of_mem_step (hsound : state.Sound) {byte : Nat} {c : Char} (hascii : c.toNat < 0x80)
    (hmem : some c ∈ (Utf8.step state byte).1) : c.toNat = byte := by
  cases state with
  | start => exact toNat_eq_of_mem_lead hmem
  | inside collected owed least greatest =>
    by_cases hbyte : least ≤ byte ∧ byte ≤ greatest
    · have hcompletes := hsound.2 byte hbyte.1 hbyte.2
      cases owed with
      | zero =>
        rw [step_last hbyte.1 hbyte.2] at hmem
        obtain ⟨hvalue, hvalid⟩ := hcompletes
        have heq : c = Char.ofNat (64 * collected + (byte - 0x80)) := Option.some.inj (List.mem_singleton.1 hmem)
        have hnat : c.toNat = 64 * collected + (byte - 0x80) := heq ▸ toNat_ofNat_of_isValidChar hvalid
        omega
      | succ owed =>
        rw [step_inner hbyte.1 hbyte.2] at hmem
        contradiction
    · rw [step_outside hbyte] at hmem
      exact toNat_eq_of_mem_lead ((List.mem_cons.1 hmem).resolve_left (Option.some_ne_none c))

/-! ### A byte below `0x80` -/

variable {first rest bytes : List UInt8} {byte : UInt8} {c : Char}

theorem charactersFrom_start_cons (hascii : byte.toNat < 0x80) (rest : List UInt8) :
    charactersFrom .start (byte :: rest) = some (Char.ofNat byte.toNat) :: charactersFrom .start rest := by
  rw [charactersFrom, step, lead, if_pos hascii]
  rfl

/-- The byte ends what has been begun before it, as the end of the bytes does. -/
theorem State.Sound.charactersFrom_append_cons (hsound : state.Sound) (hascii : byte.toNat < 0x80)
    (first rest : List UInt8) :
    charactersFrom state (first ++ byte :: rest) =
      charactersFrom state first ++ some (Char.ofNat byte.toNat) :: charactersFrom .start rest := by
  induction first generalizing state with
  | nil =>
    cases state with
    | start => exact charactersFrom_start_cons hascii rest
    | inside collected owed least greatest =>
      have hbyte : ¬(least ≤ byte.toNat ∧ byte.toNat ≤ greatest) := by
        have hleast := hsound.1
        omega
      have hstep : Utf8.step (.inside collected owed least greatest) byte.toNat =
          ([none, some (Char.ofNat byte.toNat)], .start) := by
        rw [step_outside hbyte, lead, if_pos hascii]
      show (Utf8.step (.inside collected owed least greatest) byte.toNat).1 ++
        charactersFrom (Utf8.step (.inside collected owed least greatest) byte.toNat).2 rest = _
      rw [hstep]
      rfl
  | cons head tail ih =>
    rw [List.cons_append, charactersFrom, charactersFrom, ih (hsound.step head.toNat), List.append_assoc]

theorem State.Sound.exists_mem_of_mem_charactersFrom (hsound : state.Sound) (hascii : c.toNat < 0x80)
    (hmem : some c ∈ charactersFrom state bytes) : ∃ byte ∈ bytes, byte.toNat = c.toNat := by
  induction bytes generalizing state with
  | nil =>
    cases state with
    | start => contradiction
    | inside => exact absurd (List.mem_singleton.1 hmem) (Option.some_ne_none c)
  | cons byte rest ih =>
    rw [charactersFrom] at hmem
    rcases List.mem_append.1 hmem with hnow | hlater
    · exact ⟨byte, List.mem_cons_self, (hsound.eq_of_mem_step hascii hnow).symm⟩
    · obtain ⟨other, hother, heq⟩ := ih (hsound.step byte.toNat) hlater
      exact ⟨other, List.mem_cons_of_mem byte hother, heq⟩

theorem charactersFrom_inside_ne_nil (collected owed least greatest : Nat) (bytes : List UInt8) :
    charactersFrom (.inside collected owed least greatest) bytes ≠ [] := by
  induction bytes generalizing collected owed least greatest with
  | nil => exact List.cons_ne_nil _ _
  | cons byte rest ih =>
    rw [charactersFrom]
    by_cases hbyte : least ≤ byte.toNat ∧ byte.toNat ≤ greatest
    · cases owed with
      | zero =>
        rw [step_last hbyte.1 hbyte.2]
        exact List.cons_ne_nil _ _
      | succ owed =>
        rw [step_inner hbyte.1 hbyte.2]
        exact ih _ _ _ _
    · rw [step_outside hbyte]
      exact List.cons_ne_nil _ _

theorem characters_ne_nil (hbytes : bytes ≠ []) : characters bytes ≠ [] := by
  obtain ⟨byte, rest, rfl⟩ := List.exists_cons_of_ne_nil hbytes
  rw [characters, charactersFrom, step, lead]
  repeat' split
  all_goals first | exact List.cons_ne_nil _ _ | exact charactersFrom_inside_ne_nil _ _ _ _ _

/-! ### Recoded bytes -/

theorem recode_eq_flatMap (bytes : List UInt8) :
    recode bytes = (characters bytes).flatMap fun character => String.utf8EncodeChar (character.getD '\uFFFD') := by
  rw [recode, decodeLossy, encode_ofList, List.flatMap_map]

theorem recode_nil : recode [] = [] := rfl

theorem recode_append_cons (hascii : byte.toNat < 0x80) (first rest : List UInt8) :
    recode (first ++ byte :: rest) = recode first ++ byte :: recode rest := by
  rw [recode_eq_flatMap, characters, sound_start.charactersFrom_append_cons hascii, List.flatMap_append, List.flatMap_cons,
    Option.getD_some, utf8EncodeChar_one hascii, recode_eq_flatMap, recode_eq_flatMap]
  rfl

theorem recode_cons (hascii : byte.toNat < 0x80) (rest : List UInt8) : recode (byte :: rest) = byte :: recode rest :=
  recode_append_cons hascii [] rest

theorem mem_of_mem_recode (hascii : byte.toNat < 0x80) (hmem : byte ∈ recode bytes) : byte ∈ bytes := by
  have hvalid : byte.toNat.isValidChar := .inl (by omega)
  have hnat : (Char.ofNat byte.toNat).toNat = byte.toNat := toNat_ofNat_of_isValidChar hvalid
  have hcharacter := mem_toList_of_mem_encode hascii hmem
  rw [decodeLossy, String.toList_ofList] at hcharacter
  obtain ⟨character, hread, heq⟩ := List.mem_map.1 hcharacter
  cases character with
  | none =>
    rw [← heq] at hnat
    exact absurd hascii (by rw [← hnat]; decide)
  | some c =>
    obtain rfl : c = Char.ofNat byte.toNat := heq
    obtain ⟨other, hother, hsame⟩ := sound_start.exists_mem_of_mem_charactersFrom (by rwa [hnat]) hread
    rw [hnat] at hsame
    rwa [← UInt8.toNat_inj.1 hsame]

theorem recode_ne_nil (hbytes : bytes ≠ []) : recode bytes ≠ [] := by
  rw [recode_eq_flatMap]
  obtain ⟨character, later, hcharacters⟩ := List.exists_cons_of_ne_nil (characters_ne_nil hbytes)
  rw [hcharacters, List.flatMap_cons]
  intro hnil
  exact String.utf8EncodeChar_ne_nil (List.append_eq_nil_iff.1 hnil).1

theorem isValid_recode (bytes : List UInt8) : isValid (recode bytes) = true := isValid_encode _

theorem recode_of_isValid (hvalid : isValid bytes = true) : recode bytes = bytes := by
  obtain ⟨text, rfl⟩ := (isValid_iff_exists_encode bytes).1 hvalid
  rw [recode, decodeLossy_encode]

/-- Each ill-formed part is one U+FFFD. -/
theorem replacement_mem_of_not_isValid (hinvalid : isValid bytes = false) : '\uFFFD' ∈ (decodeLossy bytes).toList := by
  obtain ⟨character, hcharacter, hnone⟩ := List.all_eq_false.1 hinvalid
  rw [Option.not_isSome_iff_eq_none.1 hnone] at hcharacter
  rw [decodeLossy, String.toList_ofList]
  exact List.mem_map.2 ⟨none, hcharacter, rfl⟩

theorem recode_recode (bytes : List UInt8) : recode (recode bytes) = recode bytes :=
  recode_of_isValid (isValid_recode bytes)

/-! ### Runs of bytes -/

variable {holds : UInt8 → Bool}

theorem holds_of_mem_recode (hhigh : ∀ byte : UInt8, 0x80 ≤ byte.toNat → holds byte = true)
    (hbytes : ∀ byte ∈ bytes, holds byte = true) : ∀ byte ∈ recode bytes, holds byte = true := by
  intro byte hmem
  rcases Nat.lt_or_ge byte.toNat 0x80 with hascii | hge
  · exact hbytes byte (mem_of_mem_recode hascii hmem)
  · exact hhigh byte hge

/-- A run that only a byte below `0x80` can end is recoded apart from what follows it. -/
theorem takeWhile_dropWhile_recode (hhigh : ∀ byte : UInt8, 0x80 ≤ byte.toNat → holds byte = true)
    (bytes : List UInt8) :
    (recode bytes).takeWhile holds = recode (bytes.takeWhile holds) ∧
      (recode bytes).dropWhile holds = recode (bytes.dropWhile holds) := by
  have hrun : ∀ byte ∈ recode (bytes.takeWhile holds), holds byte = true :=
    holds_of_mem_recode hhigh fun byte hmem => List.all_eq_true.1 List.all_takeWhile byte hmem
  have hsplit : bytes.takeWhile holds ++ bytes.dropWhile holds = bytes := List.takeWhile_append_dropWhile
  cases hrest : bytes.dropWhile holds with
  | nil =>
    rw [hrest, List.append_nil] at hsplit
    rw [hsplit] at hrun
    rw [hsplit, List.takeWhile_eq_self_iff.2 hrun, List.dropWhile_eq_nil_iff.2 hrun]
    exact ⟨rfl, rfl⟩
  | cons byte rest =>
    have hbyte : holds byte = false := by
      have hstop := List.head?_dropWhile_not holds bytes
      rwa [hrest] at hstop
    have hascii : byte.toNat < 0x80 := by
      apply Nat.lt_of_not_le
      intro hge
      rw [hhigh byte hge] at hbyte
      contradiction
    have hrecode : recode bytes = recode (bytes.takeWhile holds) ++ byte :: recode rest := by
      rw [← recode_append_cons hascii, ← hrest, hsplit]
    have hstop : ¬holds byte = true := by simp [hbyte]
    rw [hrecode, List.takeWhile_append_of_pos hrun, List.dropWhile_append_of_pos hrun,
      List.takeWhile_cons_of_neg hstop, List.dropWhile_cons_of_neg hstop, List.append_nil, recode_cons hascii]
    exact ⟨rfl, rfl⟩

/-- Recoded bytes begin with the same byte or with another one from `0x80` on. -/
theorem exists_recode_cons (byte : UInt8) (rest : List UInt8) :
    ∃ head tail, recode (byte :: rest) = head :: tail ∧
      (byte.toNat < 0x80 ∧ head = byte ∧ tail = recode rest ∨ 0x80 ≤ byte.toNat ∧ 0x80 ≤ head.toNat) := by
  rcases Nat.lt_or_ge byte.toNat 0x80 with hascii | hge
  · exact ⟨byte, recode rest, recode_cons hascii rest, .inl ⟨hascii, rfl, rfl⟩⟩
  · obtain ⟨head, tail, hrecode⟩ := List.exists_cons_of_ne_nil (recode_ne_nil (List.cons_ne_nil byte rest))
    refine ⟨head, tail, hrecode, .inr ⟨hge, ?_⟩⟩
    -- the run of bytes from `0x80` on that the bytes begin with is recoded as one
    have hrun : (recode (byte :: rest)).takeWhile (0x80 ≤ ·.toNat) =
        recode ((byte :: rest).takeWhile (0x80 ≤ ·.toNat)) :=
      (takeWhile_dropWhile_recode (fun _ => decide_eq_true) (byte :: rest)).1
    apply Nat.le_of_not_lt
    intro hascii
    rw [hrecode, List.takeWhile_cons_of_neg (by simpa using hascii),
      List.takeWhile_cons_of_pos (by simpa using hge)] at hrun
    exact recode_ne_nil (List.cons_ne_nil _ _) hrun.symm

/-- A run of bytes below `0x80` is kept. -/
theorem dropWhile_recode (hlow : ∀ byte : UInt8, 0x80 ≤ byte.toNat → holds byte = false) (bytes : List UInt8) :
    (recode bytes).dropWhile holds = recode (bytes.dropWhile holds) := by
  induction bytes with
  | nil => rfl
  | cons byte rest ih =>
    obtain ⟨head, tail, hrecode, ⟨hascii, rfl, rfl⟩ | ⟨hge, hge'⟩⟩ := exists_recode_cons byte rest
    · by_cases hholds : holds head = true
      · rw [hrecode, List.dropWhile_cons_of_pos hholds, List.dropWhile_cons_of_pos hholds, ih]
      · rw [hrecode, List.dropWhile_cons_of_neg hholds, List.dropWhile_cons_of_neg hholds, hrecode]
    · have hbyte : ¬holds byte = true := by simp [hlow byte hge]
      have hhead : ¬holds head = true := by simp [hlow head hge']
      rw [hrecode, List.dropWhile_cons_of_neg hhead, List.dropWhile_cons_of_neg hbyte, hrecode]

end GrammarCheck.Utf8
