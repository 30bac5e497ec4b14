import Bindery.Text.Edits
import Bindery.Text.Scope

/-!
# Substitution

Names in a spelling replaced by other text, each as a whole word and all at once.  A name that
follows `::` belongs to the scope before it and stays.
-/

set_option autoImplicit false

namespace Bindery

namespace Chars

/-- The edits that replace the identifiers of a text by what `meaning` gives for them. -/
def identifierEdits (meaning : List Char → Option (List Char)) (cs : List Char) : List Edit :=
  (identifiers cs).filterMap fun (place, word) =>
    if precededByScope cs place then
      none
    else
      (meaning word).map fun text => ⟨place, place + word.length, text⟩

/-- Replaces every identifier that `meaning` knows and that no `::` precedes. -/
def replaceIdentifiers (meaning : List Char → Option (List Char)) (cs : List Char) : List Char :=
  (Edits.empty.pushAll (identifierEdits meaning cs)).1.apply cs

/-- The argument for the first parameter of a given name. -/
def argumentFor (params args : List (List Char)) (word : List Char) : Option (List Char) :=
  (params.findIdx? (· == word)).bind fun index => args[index]?

/-- Replaces the parameters that have an argument by their arguments. -/
def substitute (cs : List Char) (params args : List (List Char)) : List Char :=
  replaceIdentifiers (argumentFor params args) cs

end Chars

namespace Text

/-- Replaces every identifier that `meaning` knows and that no `::` precedes. -/
def replaceIdentifiers (meaning : String → Option String) (s : String) : String :=
  String.ofList <|
    Chars.replaceIdentifiers (fun word => (meaning (String.ofList word)).map String.toList) s.toList

/-- Replaces template parameters by template arguments. -/
def substitute (s : String) (params args : List String) : String :=
  String.ofList (Chars.substitute s.toList (params.map String.toList) (args.map String.toList))

end Text

end Bindery
