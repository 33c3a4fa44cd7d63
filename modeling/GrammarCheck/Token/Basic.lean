import GrammarCheck.Text.Utf8.Basic
import GrammarCheck.Text.Quoted
import GrammarCheck.Token.Kind
/-!
# Tokens

A token is a classified piece of the source with the place where it was found.
-/

namespace GrammarCheck

/-- A place in a source: a line, counted from 1, and a byte of that line, counted from 1. -/
structure Position where
  line : Nat
  column : Nat
deriving DecidableEq, Repr

/-- The position as messages begin with it. -/
def Position.render (position : Position) : String := s!"{position.line}:{position.column}"

/-- A classified lexeme. Words carry their bytes, punctuation and the end of input carry none. -/
structure Token where
  kind : Kind
  text : List UInt8
  position : Position
  /-- The number of tokens before this one. -/
  index : Nat
deriving DecidableEq, Repr

namespace Token

def line (token : Token) : Nat := token.position.line

/-- The text of the token as characters, ill-formed bytes replaced. Names are compared by spelling. -/
def spelling (token : Token) : String := Utf8.decodeLossy token.text

def isEndOfInput (token : Token) : Bool := token.kind == .endOfInput

/-- What messages say was found: the kind, with the text where there is any. -/
def description (token : Token) : String :=
  if token.text.isEmpty then token.kind.label else s!"{token.kind.label} {Quoted.quote token.spelling}"

/-- The token with its line, for lists of tokens. Unknown words are quoted, other words are not. -/
def render (token : Token) : String :=
  let shown := match token.kind with
    | .unknown => Quoted.quote token.spelling
    | .nonTerminal | .terminal => token.spelling
    | .endOfInput => "$"
    | .endOfLine => "eol"
    | .equals => "'='"
    | .bar => "'|'"
    | .terminator => "'.'"
    | .opening bracket => s!"'{bracket.openingChar}'"
    | .closing bracket => s!"'{bracket.closingChar}'"
  s!"({token.line} {shown})"

end Token

end GrammarCheck
