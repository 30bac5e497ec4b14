import Bindery.Text.Edits
import Bindery.Text.Scope

/-!
# Default values

A default value is cut out of the text of its parameter and its names are written out in full, so
that it means the same outside its namespace.
-/

set_option autoImplicit false

namespace Bindery

namespace Chars

/-- How a character moves the depth of brackets of any kind. -/
def bracketNesting (c : Char) : Int :=
  if ['<', '(', '[', '\x7b'].contains c then 1
  else if ['>', ')', ']', '\x7d'].contains c then -1
  else 0

/-- Whether an equals sign between these two characters is part of a comparison. -/
def inComparison (before after : Option Char) : Bool :=
  before.any ['=', '<', '>', '!'].contains || after == some '='

/-- The text after the first `=` outside brackets that is no comparison, unless it is blank.
`before` is the character to the left. -/
def defaultValueFrom (depth : Int) (before : Option Char) : List Char → Option (List Char)
  | [] => none
  | c :: rest =>
      if c = '=' ∧ depth ≤ 0 ∧ inComparison before rest.head? = false then
        if (trim rest).isEmpty then none else some (trim rest)
      else
        defaultValueFrom (depth + bracketNesting c) (some c) rest

def defaultValue? (declaration : List Char) : Option (List Char) :=
  defaultValueFrom 0 none declaration

end Chars

/-- A name that an expression uses, as written and in full. -/
structure NameUse where
  simple : String
  qualified : String
deriving Repr, DecidableEq

namespace NameUse

/-- The ways between the simple and the full name to write a name: the full name without some of
its first components, at least two of them left. -/
def partialNames (use : NameUse) : List String :=
  let components := Text.splitScope use.qualified
  (List.range (components.length - 2)).map fun i => "::".intercalate (components.drop (i + 1))

/-- The edits that write `name` out as `qualified` wherever it stands as a word of its own. -/
def edits (literal : List Char) (name qualified : String) : List Edit :=
  (Chars.findWord literal name.toList).filterMap fun place =>
    if Chars.precededByScope literal place then
      none
    else
      some ⟨place, place + name.length, qualified.toList⟩

/-- The partial names of several uses, the longest first. -/
def allPartialNames (uses : List NameUse) : List (String × String) :=
  (uses.flatMap fun use => use.partialNames.map fun name => (name, use.qualified)).mergeSort
    fun a b => b.1.utf8ByteSize ≤ a.1.utf8ByteSize

/-- Writes out the names that an expression uses; partial names go before simple ones. -/
def qualifyAll (literal : String) (uses : List NameUse) : String :=
  let cs := literal.toList
  let forPartial := (allPartialNames uses).flatMap fun (name, full) => edits cs name full
  let forSimple := uses.flatMap fun use => edits cs use.simple use.qualified
  String.ofList ((Edits.empty.pushAll (forPartial ++ forSimple)).1.apply cs)

end NameUse

namespace Text

def defaultValue? (declaration : String) : Option String :=
  (Chars.defaultValue? declaration.toList).map String.ofList

end Text

end Bindery
