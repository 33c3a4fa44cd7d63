/-!
# UTF-8

Reading bytes as UTF-8 by a machine that takes one byte at a time, and writing text as bytes.

Bytes that are no UTF-8 fall apart into maximal subparts: the longest beginnings of a well-formed
sequence, or single bytes where not even the first one can begin a sequence. A subpart reads as one
missing character, so that reading never fails and `decodeLossy` has one U+FFFD for each.
-/

namespace GrammarCheck.Utf8

/-- Where the machine stands between two bytes. -/
inductive State where
  | start
  /-- Inside a character whose bytes so far hold the bits `collected`. The next byte lies between
  `least` and `greatest`, and `owed` further bytes follow it. -/
  | inside (collected owed least greatest : Nat)
deriving DecidableEq, Repr

/-- What a byte between characters completes, and the state after it. The bounds on the second byte
keep out overlong forms, surrogates and values above U+10FFFF. -/
def lead (byte : Nat) : List (Option Char) × State :=
  if byte < 0x80 then ([some (Char.ofNat byte)], .start)
  else if byte < 0xc2 then ([none], .start)
  else if byte < 0xe0 then ([], .inside (byte - 0xc0) 0 0x80 0xbf)
  else if byte < 0xf0 then
    ([], .inside (byte - 0xe0) 1 (if byte = 0xe0 then 0xa0 else 0x80) (if byte = 0xed then 0x9f else 0xbf))
  else if byte < 0xf5 then
    ([], .inside (byte - 0xf0) 2 (if byte = 0xf0 then 0x90 else 0x80) (if byte = 0xf4 then 0x8f else 0xbf))
  else ([none], .start)

/-- What one more byte completes, and the state after it. A byte that cannot continue the character
ends it as a subpart and is read again from the start. -/
def step : State → Nat → List (Option Char) × State
  | .start, byte => lead byte
  | .inside collected owed least greatest, byte =>
    if least ≤ byte ∧ byte ≤ greatest then
      match owed with
      | 0 => ([some (Char.ofNat (64 * collected + (byte - 0x80)))], .start)
      | owed + 1 => ([], .inside (64 * collected + (byte - 0x80)) owed 0x80 0xbf)
    else (none :: (lead byte).1, (lead byte).2)

/-- What the end of the bytes completes. -/
def State.finish : State → List (Option Char)
  | .start => []
  | .inside .. => [none]

/-- The characters that the bytes complete from a state on, with `none` for each subpart. -/
def charactersFrom : State → List UInt8 → List (Option Char)
  | state, [] => state.finish
  | state, byte :: rest => (step state byte.toNat).1 ++ charactersFrom (step state byte.toNat).2 rest

/-- The characters of the bytes in order, with `none` for each maximal subpart of ill-formed bytes. -/
def characters (bytes : List UInt8) : List (Option Char) := charactersFrom .start bytes

def isValid (bytes : List UInt8) : Bool := (characters bytes).all Option.isSome

/-- The text of the bytes, with U+FFFD for each maximal subpart of ill-formed bytes. -/
def decodeLossy (bytes : List UInt8) : String :=
  String.ofList ((characters bytes).map (·.getD '\uFFFD'))

def decode? (bytes : List UInt8) : Option String :=
  if isValid bytes then some (decodeLossy bytes) else none

def encode (text : String) : List UInt8 := text.toList.flatMap String.utf8EncodeChar

end GrammarCheck.Utf8
