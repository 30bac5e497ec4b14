import Bindery.Regex

/-!
# Patterns for symbols

An entry of the configuration that speaks about symbols is a regular expression if it stands
between slashes, and an exact name otherwise.
-/

set_option autoImplicit false

namespace Bindery

/-- An entry between slashes that is no valid regular expression, as written. -/
structure InvalidPattern where
  entry : String
deriving Repr, DecidableEq

/-- Which symbols an entry speaks about. -/
inductive SymbolPattern where
  | exact (name : String)
  | regex (regex : Regex)
deriving Repr, DecidableEq

namespace SymbolPattern

/-- The text between the slashes of an entry. -/
def regexSource? (entry : String) : Option String :=
  match entry.toList with
  | '/' :: rest =>
      if rest.getLast? == some '/' then some (String.ofList rest.dropLast) else none
  | _ => none

def parse (entry : String) : Except InvalidPattern SymbolPattern :=
  match regexSource? entry with
  | none => .ok (.exact entry)
  | some source =>
      match Regex.parse? source with
      | some compiled => .ok (.regex compiled)
      | none => .error ⟨entry⟩

end SymbolPattern

end Bindery
