import GrammarCheck.Text.Utf8.Basic
import GrammarCheck.Token.Kind
import GrammarCheck.Unicode.CaselessWord
import GrammarCheck.Unicode.LowercaseLetter
import GrammarCheck.Unicode.UppercaseLetter
/-!
# Lexemes

A source is a sequence of bytes. Blanks and comments are layout. Newlines, punctuation and words are
lexemes; a word is a longest run of bytes that are neither layout nor one of the other lexemes.
-/

namespace GrammarCheck

def newline : UInt8 := 0x0a

/-- Begins a comment, which runs up to the end of the line. -/
def commentMarker : UInt8 := 0x3b

/-- Space, tab, carriage return, vertical tab and form feed. -/
def isBlank (byte : UInt8) : Bool :=
  byte == 0x20 || byte == 0x09 || byte == 0x0d || byte == 0x0b || byte == 0x0c

/-- Whether the byte ends a word. -/
def isDelimiter (byte : UInt8) : Bool :=
  isBlank byte || byte == newline || byte == commentMarker || (Kind.ofPunctuation? byte).isSome

/-- Whether the character can stand in a word after the first one. -/
def isWordCharacter (c : Char) : Bool :=
  c == '_' || Unicode.isUppercaseLetter c || Unicode.isLowercaseLetter c || Unicode.isCaselessWord c

/-- The kind of a word by its first character, if every other one is a word character. -/
def Kind.ofCharacters : List Char → Kind
  | [] => .unknown
  | first :: rest =>
    if rest.all isWordCharacter then
      if Unicode.isLowercaseLetter first then .nonTerminal
      else if Unicode.isUppercaseLetter first then .terminal
      else .unknown
    else .unknown

/-- The kind of a word. Bytes that are not UTF-8 make an unknown word. -/
def Kind.ofWord (bytes : List UInt8) : Kind :=
  match Utf8.decode? bytes with
  | some text => Kind.ofCharacters text.toList
  | none => .unknown

/-- Splits off the layout that the bytes begin with: a run of blanks, or a comment without the
newline that ends it. -/
def splitLayout? : List UInt8 → Option (List UInt8 × List UInt8)
  | [] => none
  | byte :: rest =>
    if isBlank byte then some (byte :: rest.takeWhile isBlank, rest.dropWhile isBlank)
    else if byte == commentMarker then some (byte :: rest.takeWhile (· != newline), rest.dropWhile (· != newline))
    else none

/-- The units that the bytes of a source fall into, layout apart. -/
inductive Lexeme where
  | newline
  | punctuation (kind : Kind)
  | word (bytes : List UInt8)
deriving DecidableEq, Repr

/-- Splits off the lexeme that the bytes begin with. There is none at the end and before layout. -/
def Lexeme.split? : List UInt8 → Option (Lexeme × List UInt8)
  | [] => none
  | byte :: rest =>
    if byte == GrammarCheck.newline then some (.newline, rest)
    else match Kind.ofPunctuation? byte with
      | some kind => some (.punctuation kind, rest)
      | none =>
        if isDelimiter byte then none
        else some (.word (byte :: rest.takeWhile (!isDelimiter ·)), rest.dropWhile (!isDelimiter ·))

/-! ### Sizes of what is left -/

theorem length_of_splitLayout? {bytes skipped rest : List UInt8}
    (hsplit : splitLayout? bytes = some (skipped, rest)) : rest.length < bytes.length := by
  cases bytes with
  | nil => simp [splitLayout?] at hsplit
  | cons byte following =>
    simp only [splitLayout?] at hsplit
    split at hsplit
    · obtain ⟨rfl, rfl⟩ := by simpa using hsplit
      exact Nat.lt_succ_of_le (List.dropWhile_sublist _).length_le
    · split at hsplit
      · obtain ⟨rfl, rfl⟩ := by simpa using hsplit
        exact Nat.lt_succ_of_le (List.dropWhile_sublist _).length_le
      · simp at hsplit

theorem Lexeme.length_of_split? {bytes rest : List UInt8} {lexeme : Lexeme}
    (hsplit : Lexeme.split? bytes = some (lexeme, rest)) : rest.length < bytes.length := by
  cases bytes with
  | nil => simp [Lexeme.split?] at hsplit
  | cons byte following =>
    simp only [Lexeme.split?] at hsplit
    split at hsplit
    · simp_all
    · split at hsplit
      · simp_all
      · split at hsplit
        · simp at hsplit
        · obtain ⟨rfl, rfl⟩ := by simpa using hsplit
          exact Nat.lt_succ_of_le (List.dropWhile_sublist _).length_le

end GrammarCheck
