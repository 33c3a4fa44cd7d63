import GrammarCheck.Token.Basic
/-!
# Token streams

The first token that ends the input divides a list of tokens. A list without one is read as if one
followed right after its last token.
-/

namespace GrammarCheck

/-- The end of input right after the given tokens. A token without text is one byte long. -/
def Token.endOfInputAfter (tokens : List Token) : Token :=
  { kind := .endOfInput
    text := []
    position := match tokens.getLast? with
      | some last => ⟨last.line, last.position.column + max 1 last.text.length⟩
      | none => ⟨1, 1⟩
    index := tokens.length }

/-- Tokens divided by the end of input. -/
structure TokenStream where
  body : List Token
  stop : Token
  trailing : List Token
deriving DecidableEq, Repr

namespace TokenStream

/-- Divides tokens at the first one that ends the input. -/
def ofTokens (tokens : List Token) : TokenStream :=
  match tokens.dropWhile (!·.isEndOfInput) with
  | stop :: trailing => { body := tokens.takeWhile (!·.isEndOfInput), stop, trailing }
  | [] => { body := tokens, stop := .endOfInputAfter tokens, trailing := [] }

end TokenStream

end GrammarCheck
