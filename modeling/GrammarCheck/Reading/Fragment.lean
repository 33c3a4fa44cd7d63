import GrammarCheck.Grammar.Expression
/-!
# Expressions while they are read

An expression that is not complete has alternatives that are and the terms of one that is not. Around
it may stand brackets that are still open, each with the part of the expression that is outside of it.
-/

namespace GrammarCheck

/-- The part of an expression that has been read, the latest pieces first. -/
structure Fragment where
  branches : List Expression
  /-- The terms of the alternative being read. -/
  terms : List Expression
deriving DecidableEq, Repr

namespace Fragment

def empty : Fragment := ⟨[], []⟩

def push (fragment : Fragment) (term : Expression) : Fragment :=
  { fragment with terms := term :: fragment.terms }

/-- The alternative being read as it is when a token ends it. It has to have a term. A single term
stands for itself. -/
def sequence (fragment : Fragment) (found : Token) : Expression :=
  match fragment.terms with
  | [] => .malformed found (.emptySequenceBefore found)
  | [term] => term
  | terms => .sequence terms.reverse

/-- The problem with the alternative being read when a token ends it, if there is one. -/
def sequenceProblems (fragment : Fragment) (found : Token) : List Diagnostic :=
  if fragment.terms.isEmpty then [.emptySequenceBefore found] else []

/-- Completes the alternative being read and begins another one. -/
def nextBranch (fragment : Fragment) (found : Token) : Fragment :=
  { branches := fragment.sequence found :: fragment.branches, terms := [] }

/-- The whole expression as it is when a token ends it. A single alternative stands for itself. -/
def expression (fragment : Fragment) (found : Token) : Expression :=
  match fragment.branches with
  | [] => fragment.sequence found
  | branches => .alternative (fragment.sequence found :: branches).reverse

end Fragment

structure Frame where
  bracket : Bracket
  opening : Token
  /-- What has been read of the expression around it. -/
  outer : Fragment
deriving DecidableEq, Repr

/-- What has been read of the expression around a bracket, once the bracket has a body. -/
def Frame.close (frame : Frame) (body : Expression) : Fragment :=
  frame.outer.push (.enclosed frame.bracket frame.opening body)

end GrammarCheck
