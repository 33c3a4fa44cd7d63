/-!
# Ranges of code points

A property of characters is a list of code point ranges in ascending order. Many scripts alternate
between two properties from one code point to the next, so a range has a stride.
-/

namespace GrammarCheck.Unicode

/-- The code points `first`, `first + stride`, `first + 2 * stride` and so on, up to `last`. -/
structure CodeRange where
  first : Nat
  last : Nat
  stride : Nat
deriving DecidableEq, Repr

/-- Whether some range of an ascending list holds the code point. As the list ascends, the first
range that does not end before the code point decides. -/
def CodeRange.anyHolds : List CodeRange → Nat → Bool
  | [], _ => false
  | range :: laterRanges, codePoint =>
    if codePoint < range.first then false
    else if codePoint ≤ range.last then (codePoint - range.first) % range.stride == 0
    else CodeRange.anyHolds laterRanges codePoint

end GrammarCheck.Unicode
