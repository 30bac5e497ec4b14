import Bindery.Path

/-!
# Files and directories

The files that a run reads and writes, as a value: the contents of each file by its place, and the
directories there are.  A place is the list of names that leads there from the root.
-/

set_option autoImplicit false

namespace Bindery

/-- The names on the way from the root to a file or directory. -/
abbrev Place := List String

/-- Files with their contents, directories, and the directory from which relative paths start. -/
structure FileTree where
  files : List (Place × String)
  directories : List Place
  working : Place
deriving Repr, DecidableEq

namespace Place

/-- Names are compared from the root on; a directory comes before what is in it. -/
def compare : Place → Place → Ordering
  | [], [] => .eq
  | [], _ :: _ => .lt
  | _ :: _, [] => .gt
  | a :: as, b :: bs => (Ord.compare a b).then (compare as bs)

/-- Whether one place is not behind another. -/
def atMost (a b : Place) : Bool :=
  (compare a b).isLE

end Place

namespace FileTree

def empty (working : Place) : FileTree :=
  ⟨[], [], working⟩

def isDirectoryAt (tree : FileTree) (place : Place) : Bool :=
  place.isEmpty || tree.directories.contains place

def contentsAt? (tree : FileTree) (place : Place) : Option String :=
  tree.files.lookup place

/-- One step from a place on the way that a path describes; it leaves directories only. -/
def follow (tree : FileTree) (place : Place) : Path.Component → Option Place
  | .root => some []
  | component =>
      if tree.isDirectoryAt place then
        match component with
        | .root => some []
        | .here => some place
        | .up => some place.dropLast
        | .name name => some (place ++ [name])
      else
        none

/-- The place that a path leads to, whether something is there or not. -/
def place? (tree : FileTree) (path : String) : Option Place :=
  (Path.components path).foldlM tree.follow tree.working

/-- Whether a path ends in a way that only directories allow. -/
def namesDirectory (path : String) : Bool :=
  ['/'].isSuffixOf path.toList || ['/', '.'].isSuffixOf path.toList

def isDirectory (tree : FileTree) (path : String) : Bool :=
  !path.isEmpty && (tree.place? path).any tree.isDirectoryAt

def isFile (tree : FileTree) (path : String) : Bool :=
  !path.isEmpty && !namesDirectory path
    && (tree.place? path).any fun place => (tree.contentsAt? place).isSome

def hasEntry (tree : FileTree) (path : String) : Bool :=
  tree.isDirectory path || tree.isFile path

/-- The places below a directory, seen from it and in order. -/
def below (tree : FileTree) (path : String) : List Place :=
  match tree.place? path with
  | none => []
  | some base =>
      (((tree.files.map (·.1) ++ tree.directories).filter fun place =>
        base.isPrefixOf place && base.length < place.length).map
          (·.drop base.length)).mergeSort Place.atMost

/-- The names in a directory, in order. -/
def names (tree : FileTree) (path : String) : List String :=
  (tree.below path).filterMap fun
    | [name] => some name
    | _ => none

/-- The files below a directory with their contents, seen from it and in order. -/
def filesBelow (tree : FileTree) (path : String) : List (Place × String) :=
  (tree.below path).filterMap fun relative => do
    let base ← tree.place? path
    some (relative, ← tree.contentsAt? (base ++ relative))

/-- Makes a directory at a place unless there is one; where a file is, that is not possible. -/
def addDirectory (tree : FileTree) (place : Place) : Option FileTree :=
  if tree.isDirectoryAt place then some tree
  else if (tree.contentsAt? place).isSome then none
  else some { tree with directories := tree.directories ++ [place] }

/-- Makes the directories that a path leads through; gives the place where it ends. -/
def makeDirectories (tree : FileTree) (path : String) : Option (FileTree × Place) :=
  (Path.components path).foldlM (fun (tree, place) component => do
    match component with
    | .root => some (tree, [])
    | .here => some (tree, place)
    | .up => some (tree, place.dropLast)
    | .name name => some (← tree.addDirectory (place ++ [name]), place ++ [name]))
    (tree, tree.working)

def putAt (tree : FileTree) (place : Place) (contents : String) : FileTree :=
  { tree with
    files :=
      if (tree.contentsAt? place).isSome then
        tree.files.map fun file => if file.1 = place then (place, contents) else file
      else
        tree.files ++ [(place, contents)] }

/-- Writes a file and makes the directories around it.  It fails where the path leads through a
file or ends at a directory. -/
def write? (tree : FileTree) (path contents : String) : Option FileTree := do
  let name ← Path.fileName? path
  let (tree, directory) ← tree.makeDirectories ((Path.parent? path).getD "")
  let place := directory ++ [name]
  if tree.isDirectoryAt place then none else some (tree.putAt place contents)

end FileTree

end Bindery
