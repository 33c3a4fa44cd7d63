import GrammarCheck.CommandLine.Outcome
/-!
# File trees

Directories and files held in memory, read by paths. Of what lies outside of the tree only the
directories around it are known.
-/

namespace GrammarCheck.CommandLine

/-- The files and directories below a directory, by the names on the way to them. A directory has no
contents. Those that lie on the way to something need no entry. -/
structure FileTree where
  entries : List (List String × Option (List UInt8))
deriving DecidableEq, Repr

namespace FileTree

def cutAtSlashes : List Char → List (List Char)
  | [] => [[]]
  | c :: rest =>
    if c = '/' then [] :: cutAtSlashes rest
    else match cutAtSlashes rest with
      | name :: names => (c :: name) :: names
      | [] => [[c]]

/-- The names that a path is made of. Doubled and final slashes leave empty names. -/
def components (path : String) : List String := (cutAtSlashes path.toList).map String.ofList

/-- The tree of the given files. A name that ends in a slash is a directory. -/
def ofFiles (files : List (String × List UInt8)) : FileTree :=
  ⟨files.map fun file =>
    let names := components file.1
    if names.getLast? = some "" then (names.dropLast, none) else (names, some file.2)⟩

inductive Place where
  /-- A directory around the tree. -/
  | outside
  | directory (names : List String)
  | file (contents : List UInt8)
  | missing
deriving DecidableEq, Repr

/-- Where names lead from the root of the tree. -/
def place (tree : FileTree) (names : List String) : Place :=
  match tree.entries.find? (·.1 = names) with
  | some (_, some contents) => .file contents
  | some (_, none) => .directory names
  | none => if names = [] ∨ tree.entries.any (names.isPrefixOf ·.1) then .directory names else .missing

/-- Where one more name leads from a directory. -/
def enter (tree : FileTree) (names : List String) (name : String) : Place :=
  if name = "" ∨ name = "." then .directory names
  else if name = ".." then (if names = [] then .outside else .directory names.dropLast)
  else tree.place (names ++ [name])

/-- Follows names from a place, which has to be a directory if there are any. -/
def follow (tree : FileTree) : Place → List String → Except ReadFailure (List UInt8)
  | .file contents, [] => .ok contents
  | .file _, _ :: _ => .error .notADirectory
  | .missing, _ => .error .notFound
  | .outside, [] | .directory _, [] => .error .isADirectory
  | .outside, name :: rest =>
    follow tree (if name = "" ∨ name = "." ∨ name = ".." then .outside else .missing) rest
  | .directory names, name :: rest => follow tree (tree.enter names name) rest

/-- The contents of the file at a path. A path that begins with a slash begins outside of the tree. -/
def read (tree : FileTree) (path : String) : Except ReadFailure (List UInt8) :=
  match components path with
  | "" :: names => tree.follow .outside names
  | names => tree.follow (.directory []) names

end FileTree

end GrammarCheck.CommandLine
