import GrammarCheck.Proofs.Text.Utf8
import GrammarCheck.Token.Lexeme

/-!
# Words by their characters

The kind of a word follows from its characters: the first one decides between non-terminals and
terminals, and all of them decide whether the word is one of the two at all. That no word is both
rests on the tables of letters, which have no code point in common.
-/

namespace GrammarCheck

namespace Unicode

/-! ### The two cases of letters -/

namespace CodeRange

def Holds (range : CodeRange) (codePoint : Nat) : Prop :=
  range.first ≤ codePoint ∧ codePoint ≤ range.last ∧ (codePoint - range.first) % range.stride = 0

/-- Whether all code points of the range are even or all are odd. -/
def keepsParity (range : CodeRange) : Bool := range.stride % 2 == 0 || range.first == range.last

/-- A reason for two ranges to have no code point in common: one ends before the other begins, or
one holds even code points and the other odd ones. -/
def isApart (one other : CodeRange) : Bool :=
  one.last < other.first || other.last < one.first ||
    (one.keepsParity && other.keepsParity && (one.first + other.first) % 2 == 1)

/-- Whether a range is apart from those of a list up to its end, and what follows it from the others. -/
def isApartFrom (range : CodeRange) (later : List CodeRange → Bool) : List CodeRange → Bool
  | [] => true
  | other :: others =>
    range.isApart other &&
      if range.last ≤ other.last then later (other :: others) else range.isApartFrom later others

/-- Whether the ranges of two ascending lists are apart. Of the two first ranges, the one that ends
first is compared with no other one. -/
def areApart : List CodeRange → List CodeRange → Bool
  | [] => fun _ => true
  | range :: rest => range.isApartFrom (areApart rest)

variable {range other : CodeRange} {rest others : List CodeRange} {codePoint : Nat}

theorem anyHolds_cons_iff (range : CodeRange) (rest : List CodeRange) (codePoint : Nat) :
    anyHolds (range :: rest) codePoint = true ↔
      range.Holds codePoint ∨
        range.first ≤ codePoint ∧ range.last < codePoint ∧ anyHolds rest codePoint = true := by
  unfold Holds
  rw [anyHolds]
  grind

theorem Holds.mod_two_eq (hkeeps : range.keepsParity = true) (hholds : range.Holds codePoint) :
    codePoint % 2 = range.first % 2 := by
  obtain ⟨hfirst, hlast, hstride⟩ := hholds
  rcases Bool.or_eq_true_iff.1 hkeeps with heven | hone
  · have htwo : 2 ∣ codePoint - range.first :=
      Nat.dvd_trans (Nat.dvd_of_mod_eq_zero (eq_of_beq heven)) (Nat.dvd_of_mod_eq_zero hstride)
    omega
  · have hsame : range.first = range.last := eq_of_beq hone
    omega

theorem Holds.not_holds (hapart : range.isApart other = true) (hholds : range.Holds codePoint) :
    ¬other.Holds codePoint := by
  intro hother
  simp only [isApart, Bool.or_eq_true, Bool.and_eq_true, decide_eq_true_eq, beq_iff_eq] at hapart
  rcases hapart with (hbefore | hafter) | ⟨⟨hkeeps, hkeeps'⟩, hparity⟩
  · exact absurd (Nat.lt_of_le_of_lt hholds.2.1 hbefore) (Nat.not_lt_of_le hother.1)
  · exact absurd (Nat.lt_of_le_of_lt hother.2.1 hafter) (Nat.not_lt_of_le hholds.1)
  · have heven := hholds.mod_two_eq hkeeps
    have hodd := hother.mod_two_eq hkeeps'
    omega

theorem anyHolds_eq_false_of_isApartFrom {later : List CodeRange → Bool}
    (hlater : ∀ others, later others = true → anyHolds rest codePoint = true → anyHolds others codePoint = false)
    (hapart : range.isApartFrom later others = true) (hholds : anyHolds (range :: rest) codePoint = true) :
    anyHolds others codePoint = false := by
  induction others with
  | nil => rfl
  | cons other others ih =>
    obtain ⟨hfirst, hrest⟩ := Bool.and_eq_true_iff.1 hapart
    apply Bool.eq_false_iff.2
    intro hother
    rcases (anyHolds_cons_iff other others codePoint).1 hother with hin | ⟨hfirst', hlast', hothers⟩
    · rcases (anyHolds_cons_iff range rest codePoint).1 hholds with hin' | ⟨-, hlast, hrest'⟩
      · exact hin'.not_holds hfirst hin
      · rw [if_pos (Nat.le_trans (Nat.le_of_lt hlast) hin.2.1)] at hrest
        rw [hlater _ hrest hrest'] at hother
        contradiction
    · by_cases hends : range.last ≤ other.last
      · rw [if_pos hends] at hrest
        rcases (anyHolds_cons_iff range rest codePoint).1 hholds with hin' | ⟨-, -, hrest'⟩
        · exact absurd (Nat.lt_of_le_of_lt (Nat.le_trans hin'.2.1 hends) hlast') (Nat.lt_irrefl _)
        · rw [hlater _ hrest hrest'] at hother
          contradiction
      · rw [if_neg hends] at hrest
        rw [ih hrest] at hothers
        contradiction

theorem anyHolds_eq_false_of_areApart (hapart : areApart rest others = true)
    (hholds : anyHolds rest codePoint = true) : anyHolds others codePoint = false := by
  induction rest generalizing others with
  | nil => contradiction
  | cons range rest ih => exact anyHolds_eq_false_of_isApartFrom (fun _ => ih) hapart hholds

end CodeRange

theorem isUppercaseLetter_of_isLowercaseLetter {c : Char} (hlower : isLowercaseLetter c = true) :
    isUppercaseLetter c = false :=
  CodeRange.anyHolds_eq_false_of_areApart (by decide +kernel) hlower

end Unicode

/-! ### The kinds of words -/

/-- The bytes are a word in UTF-8 whose first character passes the test. The further characters are
letters of any category, decimal digits and underscores. -/
def Spelled (begins : Char → Bool) (bytes : List UInt8) : Prop :=
  ∃ first rest, bytes = Utf8.encode (String.ofList (first :: rest)) ∧ begins first = true ∧
    ∀ c ∈ rest, c = '_' ∨ Unicode.isUppercaseLetter c = true ∨ Unicode.isLowercaseLetter c = true ∨
      Unicode.isCaselessWord c = true

theorem isWordCharacter_eq_true_iff (c : Char) :
    isWordCharacter c = true ↔ c = '_' ∨ Unicode.isUppercaseLetter c = true ∨ Unicode.isLowercaseLetter c = true ∨
      Unicode.isCaselessWord c = true := by
  simp only [isWordCharacter, Bool.or_eq_true, beq_iff_eq, or_assoc]

theorem spelled_iff_exists_decode? (begins : Char → Bool) (bytes : List UInt8) :
    Spelled begins bytes ↔ ∃ first rest, Utf8.decode? bytes = some (String.ofList (first :: rest)) ∧
      begins first = true ∧ rest.all isWordCharacter = true := by
  simp only [Spelled, Utf8.decode?_eq_some_iff, List.all_eq_true, isWordCharacter_eq_true_iff]

theorem Kind.ofCharacters_cons_eq_nonTerminal_iff (first : Char) (rest : List Char) :
    Kind.ofCharacters (first :: rest) = .nonTerminal ↔
      Unicode.isLowercaseLetter first = true ∧ rest.all isWordCharacter = true := by
  rw [Kind.ofCharacters]
  grind

theorem Kind.ofCharacters_cons_eq_terminal_iff (first : Char) (rest : List Char) :
    Kind.ofCharacters (first :: rest) = .terminal ↔
      Unicode.isUppercaseLetter first = true ∧ rest.all isWordCharacter = true := by
  have hapart := @Unicode.isUppercaseLetter_of_isLowercaseLetter first
  rw [Kind.ofCharacters]
  grind

theorem Kind.ofWord_eq_iff {kind : Kind} (hkind : kind ≠ .unknown) (bytes : List UInt8) :
    Kind.ofWord bytes = kind ↔ ∃ first rest, Utf8.decode? bytes = some (String.ofList (first :: rest)) ∧
      Kind.ofCharacters (first :: rest) = kind := by
  cases hdecode : Utf8.decode? bytes with
  | none => simp [Kind.ofWord, hdecode, hkind.symm]
  | some text =>
    have htext : text = String.ofList text.toList := String.ofList_toList.symm
    simp only [Kind.ofWord, hdecode]
    cases hcharacters : text.toList with
    | nil =>
      rw [hcharacters] at htext
      simp [Kind.ofCharacters, hkind.symm, htext]
    | cons first rest =>
      rw [hcharacters] at htext
      constructor
      · intro heq
        exact ⟨first, rest, congrArg some htext, heq⟩
      · intro hexists
        obtain ⟨first', rest', hsome, heq⟩ := hexists
        rw [htext, Option.some.injEq, String.ofList_inj] at hsome
        rw [hsome]
        exact heq

theorem Kind.ofWord_eq_nonTerminal_iff (bytes : List UInt8) :
    Kind.ofWord bytes = .nonTerminal ↔ Spelled Unicode.isLowercaseLetter bytes := by
  rw [Kind.ofWord_eq_iff (by decide), spelled_iff_exists_decode?]
  simp only [Kind.ofCharacters_cons_eq_nonTerminal_iff]

theorem Kind.ofWord_eq_terminal_iff (bytes : List UInt8) :
    Kind.ofWord bytes = .terminal ↔ Spelled Unicode.isUppercaseLetter bytes := by
  rw [Kind.ofWord_eq_iff (by decide), spelled_iff_exists_decode?]
  simp only [Kind.ofCharacters_cons_eq_terminal_iff]

theorem isWordCharacter_of_isLowercaseLetter {c : Char} (hlower : Unicode.isLowercaseLetter c = true) :
    isWordCharacter c = true :=
  (isWordCharacter_eq_true_iff c).2 (.inr (.inr (.inl hlower)))

theorem isWordCharacter_of_isUppercaseLetter {c : Char} (hupper : Unicode.isUppercaseLetter c = true) :
    isWordCharacter c = true :=
  (isWordCharacter_eq_true_iff c).2 (.inr (.inl hupper))

/-- All characters of a word that is known are word characters, the first one as well. -/
theorem Kind.isWordCharacter_of_mem {characters : List Char} (hknown : Kind.ofCharacters characters ≠ .unknown) :
    ∀ c ∈ characters, isWordCharacter c = true := by
  cases characters with
  | nil => exact fun _ hmem => absurd hmem List.not_mem_nil
  | cons first rest =>
    rw [Kind.ofCharacters] at hknown
    split at hknown
    · next hrest =>
      refine List.forall_mem_cons.2 ⟨?_, List.all_eq_true.1 hrest⟩
      split at hknown
      · exact isWordCharacter_of_isLowercaseLetter ‹_›
      · split at hknown
        · exact isWordCharacter_of_isUppercaseLetter ‹_›
        · exact absurd rfl hknown
    · exact absurd rfl hknown

theorem Kind.ofCharacters_eq_unknown_of_mem {characters : List Char} {c : Char} (hmem : c ∈ characters)
    (hword : isWordCharacter c = false) : Kind.ofCharacters characters = .unknown := by
  by_cases hknown : Kind.ofCharacters characters = .unknown
  · exact hknown
  · rw [Kind.isWordCharacter_of_mem hknown c hmem] at hword
    contradiction

theorem Kind.ofCharacters_cases (characters : List Char) :
    Kind.ofCharacters characters = .nonTerminal ∨ Kind.ofCharacters characters = .terminal ∨
      Kind.ofCharacters characters = .unknown := by
  cases characters with
  | nil => exact .inr (.inr rfl)
  | cons first rest =>
    rw [Kind.ofCharacters]
    grind

theorem Kind.ofWord_cases (bytes : List UInt8) :
    Kind.ofWord bytes = .nonTerminal ∨ Kind.ofWord bytes = .terminal ∨ Kind.ofWord bytes = .unknown := by
  rw [Kind.ofWord]
  cases Utf8.decode? bytes with
  | none => exact .inr (.inr rfl)
  | some text => exact Kind.ofCharacters_cases text.toList

end GrammarCheck
