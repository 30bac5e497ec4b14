import Bindery.Text.Blank

/-!
# Lines of code

Generated code as a list of lines, each with the depth of its block.  What makes a file is decided
on lines; the text is written at the end.
-/

set_option autoImplicit false

namespace Bindery

/-- A line of code.  A line without text is written without indentation. -/
structure CodeLine where
  depth : Nat
  text : String
deriving Repr, DecidableEq

namespace CodeLine

/-- A line at the outermost level. -/
def flat (text : String) : CodeLine :=
  ⟨0, text⟩

/-- The line between two parts. -/
def blank : CodeLine :=
  flat ""

/-- The line one level deeper. -/
def indent (line : CodeLine) : CodeLine :=
  { line with depth := line.depth + 1 }

/-- The text of a line: two spaces for each level, and the end of the line. -/
def write (line : CodeLine) : String :=
  let margin := if line.text.isEmpty then 0 else 2 * line.depth
  String.ofList (List.replicate margin ' ') ++ line.text ++ "\n"

end CodeLine

namespace Code

/-- The text of some lines. -/
def write (lines : List CodeLine) : String :=
  String.join (lines.map CodeLine.write)

/-- Lines between braces, one level deeper; `close` stands in the last line. -/
def braced (close : String) (lines : List CodeLine) : List CodeLine :=
  .flat "\x7b" :: lines.map CodeLine.indent ++ [.flat close]

/-- The pieces between the line ends of a text that is not empty. -/
def splitLines : List Char → List (List Char)
  | [] => [[]]
  | '\r' :: '\n' :: rest => [] :: splitLines rest
  | '\n' :: rest => [] :: splitLines rest
  | c :: rest =>
      match splitLines rest with
      | [] => [[c]]
      | piece :: later => (c :: piece) :: later

/-- The lines of one call in a chain; the last one gets the terminator. -/
def linkLines (terminator link : String) : List CodeLine :=
  (splitLines (link ++ terminator).toList).map fun line => .flat (String.ofList line)

def chainLines : List String → List CodeLine
  | [] => []
  | [last] => linkLines ";" last
  | link :: later => linkLines "." link ++ chainLines later

/-- A statement that applies some calls to `head`, one after the other. -/
def chain (head : String) (links : List String) : List CodeLine :=
  if links.isEmpty then
    [.flat (head ++ ";")]
  else
    .flat (head ++ ".") :: (chainLines links).map CodeLine.indent

end Code

/-- A generated file, its path below the output directory. -/
structure RenderedFile where
  path : String
  contents : String
deriving Repr, DecidableEq

end Bindery
