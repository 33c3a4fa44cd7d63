/-!
# Kinds of tokens

A kind has a label, which messages use, and the kinds of punctuation have a character of their own.
-/

namespace GrammarCheck

/-- The three ways to enclose an expression. -/
inductive Bracket where
  /-- `( )`, a group. -/
  | group
  /-- `[ ]`, an optional part. -/
  | option
  /-- `{ }`, a part repeated any number of times. -/
  | repetition
deriving DecidableEq, Repr

def Bracket.openingChar : Bracket → Char
  | .group => '('
  | .option => '['
  | .repetition => '\x7b'

def Bracket.closingChar : Bracket → Char
  | .group => ')'
  | .option => ']'
  | .repetition => '\x7d'

inductive Kind where
  /-- A word that is neither a non-terminal nor a terminal. -/
  | unknown
  | opening (bracket : Bracket)
  | closing (bracket : Bracket)
  | endOfInput
  | endOfLine
  | equals
  /-- The bar between alternatives. -/
  | bar
  /-- A word that begins with a lowercase letter, the name of a production. -/
  | nonTerminal
  /-- A word that begins with an uppercase letter. -/
  | terminal
  /-- The full stop after a production. -/
  | terminator
deriving DecidableEq, Repr

namespace Kind

/-- Every kind, in the order of the labels' table. -/
def all : List Kind :=
  [unknown, closing .group, closing .option, closing .repetition, endOfInput, endOfLine, equals, bar,
   nonTerminal, opening .group, opening .option, opening .repetition, terminal, terminator]

def label : Kind → String
  | unknown => "UNKNOWN"
  | closing .group => "END_GROUP"
  | closing .option => "END_OPTION"
  | closing .repetition => "END_REPETITION"
  | endOfInput => "EOF"
  | endOfLine => "EOL"
  | equals => "EQ"
  | bar => "OR"
  | nonTerminal => "NON_TERMINAL"
  | opening .group => "START_GROUP"
  | opening .option => "START_OPTION"
  | opening .repetition => "START_REPETITION"
  | terminal => "TERMINAL"
  | terminator => "TERMINATOR"

def ofLabel? (label : String) : Option Kind := all.find? (·.label == label)

/-- The character that a kind of punctuation stands for. -/
def punctuation? : Kind → Option Char
  | equals => some '='
  | bar => some '|'
  | terminator => some '.'
  | opening bracket => some bracket.openingChar
  | closing bracket => some bracket.closingChar
  | unknown | endOfInput | endOfLine | nonTerminal | terminal => none

/-- The kind of punctuation that a byte stands for. -/
def ofPunctuation? (byte : UInt8) : Option Kind :=
  match Char.ofNat byte.toNat with
  | '=' => some equals
  | '|' => some bar
  | '.' => some terminator
  | '(' => some (opening .group)
  | '[' => some (opening .option)
  | '\x7b' => some (opening .repetition)
  | ')' => some (closing .group)
  | ']' => some (closing .option)
  | '\x7d' => some (closing .repetition)
  | _ => none

/-- Reading the punctuation character of a kind gives the kind, and no other character gives it. -/
theorem ofPunctuation?_eq_some_iff (byte : UInt8) (kind : Kind) :
    ofPunctuation? byte = some kind ↔ kind.punctuation? = some (Char.ofNat byte.toNat) := by
  unfold ofPunctuation?
  generalize Char.ofNat byte.toNat = c
  split <;> rcases kind with _ | ⟨_ | _ | _⟩ | ⟨_ | _ | _⟩ | _ | _ | _ | _ | _ | _ | _ <;>
    simp_all [punctuation?, Bracket.openingChar, Bracket.closingChar, eq_comm]

end Kind

end GrammarCheck
