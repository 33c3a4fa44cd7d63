import GrammarCheck.Unicode.Unprintable
/-!
# Quoted text

Text in double quotes that stays on one line: quotes, backslashes and whatever cannot be shown are
spelled out. Each character is written on its own, so quoting a text is quoting its parts.
-/

namespace GrammarCheck.Quoted

/-- Whether the character is written by its code point. -/
def needsCodePoint (c : Char) : Bool := c.toNat < 0x20 || Unicode.isUnprintable c

/-- How a character is written between the quotes. -/
def escape (c : Char) : List Char :=
  if c = '"' then ['\\', '"']
  else if c = '\\' then ['\\', '\\']
  else if c = '\x00' then ['\\', '0']
  else if c = '\t' then ['\\', 't']
  else if c = '\n' then ['\\', 'n']
  else if c = '\r' then ['\\', 'r']
  else if needsCodePoint c then ['\\', 'u', '\x7b'] ++ Nat.toDigits 16 c.toNat ++ ['\x7d']
  else [c]

def quote (text : String) : String :=
  String.ofList ('"' :: (text.toList.flatMap escape ++ ['"']))

end GrammarCheck.Quoted
