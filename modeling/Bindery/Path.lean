import Bindery.Text.Blank

/-!
# Paths

File paths as texts with `/` between their pieces.  Two readings stand side by side: the
components, in which repeated slashes and inner `.` pieces do not count, and the text, which the
operations below change no more than they must.
-/

set_option autoImplicit false

namespace Bindery

namespace Path

/-- What a path is made of: the root, the leading `.`, `..`, and names. -/
inductive Component where
  | root
  | here
  | up
  | name (text : String)
deriving Repr, DecidableEq

def Component.text : Component → String
  | root => "/"
  | here => "."
  | up => ".."
  | name text => text

/-- The place of a component's form in the order of components. -/
def Component.rank : Component → Nat
  | root => 0
  | here => 1
  | up => 2
  | name _ => 3

/-- Components by form, names by their characters. -/
def Component.compare : Component → Component → Ordering
  | name a, name b => Ord.compare a b
  | a, b => Ord.compare a.rank b.rank

/-- The pieces between the slashes of a text; there is always one. -/
def pieces : List Char → List (List Char)
  | [] => [[]]
  | c :: rest =>
      if c = '/' then
        [] :: pieces rest
      else
        match pieces rest with
        | [] => [[c]]
        | piece :: later => (c :: piece) :: later

/-- A path cut into a lead (`/`, a leading `.`, or nothing) and the pieces behind it. -/
structure Parts where
  lead : List Char
  body : List (List Char)
deriving Repr, DecidableEq

/-- Empty pieces and `.` do not count. -/
def isIdle (piece : List Char) : Bool :=
  piece.isEmpty || piece == ['.']

/-- A list without the elements at its end that satisfy `p`. -/
def dropEnd {α : Type} (p : α → Bool) (xs : List α) : List α :=
  (xs.reverse.dropWhile p).reverse

namespace Parts

def ofText : List Char → Parts
  | '/' :: rest => ⟨['/'], pieces rest⟩
  | ['.'] => ⟨['.'], []⟩
  | '.' :: '/' :: rest => ⟨['.'], [] :: pieces rest⟩
  | cs => ⟨[], pieces cs⟩

/-- Joins the pieces again. -/
def toText (parts : Parts) : List Char :=
  parts.lead ++ List.intercalate ['/'] parts.body

/-- Drops the idle pieces at the end. -/
def trimEnd (parts : Parts) : Parts :=
  { parts with body := dropEnd isIdle parts.body }

def leadComponents (parts : Parts) : List Component :=
  match parts.lead with
  | ['/'] => [.root]
  | ['.'] => [.here]
  | _ => []

end Parts

/-- The component that a counting piece stands for. -/
def componentOf (piece : List Char) : Component :=
  if piece = ['.', '.'] then .up else .name (String.ofList piece)

def components (path : String) : List Component :=
  let parts := Parts.ofText path.toList
  parts.leadComponents ++ (parts.body.filter fun piece => !isIdle piece).map componentOf

def compareComponents : List Component → List Component → Ordering
  | [], [] => .eq
  | [], _ :: _ => .lt
  | _ :: _, [] => .gt
  | a :: as, b :: bs => (a.compare b).then (compareComponents as bs)

def compare (a b : String) : Ordering :=
  compareComponents (components a) (components b)

/-- Whether two paths have the same components. -/
def same (a b : String) : Bool :=
  components a == components b

/-- Whether a path starts at the root. -/
def isAbsolute (path : String) : Bool :=
  path.toList.head? == some '/'

/-- The last component, if it is a name. -/
def fileName? (path : String) : Option String :=
  match (components path).getLast? with
  | some (.name text) => some text
  | _ => none

/-- Cuts a file name at its last dot; a name with no dot, or with its only dot in front, is stem
altogether. -/
def splitName (name : List Char) : List Char × Option (List Char) :=
  let extension := (name.reverse.takeWhile (· != '.')).reverse
  let stem := name.take (name.length - extension.length - 1)
  if name.contains '.' && !stem.isEmpty then (stem, some extension) else (name, none)

/-- The last component without its extension. -/
def fileStem? (path : String) : Option String :=
  (fileName? path).map fun name => String.ofList (splitName name.toList).1

def withSlashes (path : String) : String :=
  path.map fun c => if c = '\\' then '/' else c

/-- Puts `path` behind `base`: after a slash, unless there is one or `base` is empty.  An absolute
path takes the place of `base`. -/
def join (base path : String) : String :=
  if isAbsolute path then
    path
  else if base.isEmpty || base.toList.getLast? == some '/' then
    base ++ path
  else
    base ++ "/" ++ path

/-- The text before the last component, trimmed.  The root and the empty path have none. -/
def parent? (path : String) : Option String :=
  let parts := (Parts.ofText path.toList).trimEnd
  match parts.body with
  | [] => if parts.lead = ['.'] then some "" else none
  | body => some (String.ofList (Parts.mk parts.lead body.dropLast).trimEnd.toText)

/-- Replaces the last component if it is a name, and adds one otherwise. -/
def withFileName (path name : String) : String :=
  match fileName? path with
  | some _ => join ((parent? path).getD "") name
  | none => join path name

/-- Replaces the extension of the last component, if that is a name. -/
def withExtension (path extension : String) : String :=
  match fileStem? path with
  | none => path
  | some stem =>
      let parts := (Parts.ofText path.toList).trimEnd
      let body := parts.body.dropLast ++ [stem.toList]
      let base := String.ofList (Parts.mk parts.lead body).toText
      if extension.isEmpty then base else base ++ "." ++ extension

/-- The components left of `path` after those of `base`, if it starts with them. -/
def afterPrefix? : List Component → List Component → Option (List Component)
  | path, [] => some path
  | [], _ :: _ => none
  | p :: path, b :: base => if p = b then afterPrefix? path base else none

/-- Drops the first `n` counting pieces and the idle pieces around them. -/
def dropPieces (n : Nat) : List (List Char) → List (List Char)
  | [] => []
  | piece :: later =>
      if isIdle piece then
        dropPieces n later
      else
        match n with
        | 0 => piece :: later
        | n + 1 => dropPieces n later

/-- The part of `path` below `base`, if `base` leads there. -/
def stripPrefix? (base path : String) : Option String :=
  let parts := (Parts.ofText path.toList).trimEnd
  match components base with
  | [] => some (String.ofList parts.toText)
  | taken =>
      (afterPrefix? (components path) taken).map fun _ =>
        let count := taken.length - parts.leadComponents.length
        String.ofList (Parts.mk [] (dropPieces count parts.body)).toText

end Path

end Bindery
