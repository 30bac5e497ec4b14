import Bindery.Files
import Bindery.Glob.Pattern

/-!
# Files that match a pattern

A pattern is matched against the files there are, component by component, so that `*` stays within
a component.  The matches come in the order of their names, a directory before what is in it.
-/

set_option autoImplicit false

namespace Bindery

namespace Glob

/-- Whether a component of a pattern stands for any number of components. -/
def isRecursive (tokens : List Token) : Bool :=
  tokens == [.anyComponents]

/-- A path one name further; what is in the directory `.` goes without it. -/
def extend (path name : String) : String :=
  if Path.same path "." then name else Path.join path name

/-- The special entries of a directory that a component matches, which only one that starts with
a dot does. -/
def specialEntries (tokens : List Token) : List String :=
  if tokens.head? == some (.char '.') then ["..", "."].filter (matchesAll tokens) else []

/-- The paths in the directory `path` that match a list of components, of which no two recursive
ones follow each other. -/
def listFrom (tree : FileTree) : List (List Token) → String → List String
  | [], path => [path]
  | tokens :: rest, path =>
      match literal? tokens with
      | some name =>
          let name := String.ofList name
          let next := extend path name
          let present :=
            if name = "." ∨ name = ".." then tree.isDirectory path else tree.hasEntry next
          if present then listFrom tree rest next else []
      | none =>
          if !tree.isDirectory path then
            []
          else if isRecursive tokens then
            (tree.below path).flatMap fun place =>
              let entry := place.foldl extend path
              match rest with
              | [] => if tree.isDirectory entry then [entry] else []
              | following :: later =>
                  if place.getLast?.any (matchesAll following) then listFrom tree later entry
                  else []
          else
            (specialEntries tokens).flatMap (fun name => listFrom tree rest (Path.join path name))
              ++ ((tree.names path).filter (matchesAll tokens)).flatMap fun name =>
                listFrom tree rest (extend path name)

/-- A list of components in which no two recursive ones follow each other. -/
def collapse : List (List Token) → List (List Token)
  | first :: second :: rest =>
      if isRecursive first && isRecursive second then collapse (second :: rest)
      else first :: collapse (second :: rest)
  | components => components

/-- The texts between slashes; the empty one at the end does not count. -/
def componentTexts (text : List Char) : List (List Char) :=
  let pieces := Path.pieces text
  if pieces.getLast? = some [] then pieces.dropLast else pieces

/-- The paths that match a pattern.  The pattern has to be valid as a whole and component by
component; one that ends in a slash matches directories only. -/
def list (tree : FileTree) (pattern : String) : Except PatternError (List String) := do
  let _ ← parse pattern
  let absolute := Path.isAbsolute pattern
  let body := if absolute then pattern.toList.drop 1 else pattern.toList
  let components ← (componentTexts body).mapM fun text => parse (String.ofList text)
  let components := if body.isEmpty then [[]] else collapse components
  let found := listFrom tree components (if absolute then "/" else ".")
  return if pattern.toList.getLast? = some '/' then found.filter tree.isDirectory else found

end Glob

end Bindery
