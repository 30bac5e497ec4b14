import Bindery.Text.Letter

/-!
# Letter case

The conventions by which C++ names become Ruby names.  Only ASCII letters have case here; every
other character passes unchanged.
-/

set_option autoImplicit false

namespace Bindery

namespace Chars

/-- The text with its first letter in upper case. -/
def capitalize : List Char → List Char
  | [] => []
  | c :: rest => upper c :: rest

def isWordGap (c : Char) : Bool :=
  c == '_' || c == '-' || c == ' '

/-- The words of a text: what stands between the characters that satisfy `p`, empty words left
out. -/
def wordsBy (p : Char → Bool) (cs : List Char) : List (List Char) :=
  (cs.splitOnP p).filter fun word => !word.isEmpty

/-- The words of a name, each with its first letter in upper case, run together. -/
def camelCase (cs : List Char) : List Char :=
  (wordsBy isWordGap cs).flatMap capitalize

/-- Whether an upper-case letter after `before` begins a word; `after` is what follows it. -/
def beginsWord (before : Char) (after : List Char) : Bool :=
  before.isLower || before.isDigit || (before.isUpper && after.head?.any Char.isLower)

/-- The name in lower case with an underscore in front of each inner word; `before` is the
character to the left. -/
def snakeCaseFrom (before : Option Char) : List Char → List Char
  | [] => []
  | c :: rest =>
      let later := lower c :: snakeCaseFrom (some c) rest
      if c.isUpper && before.any (beginsWord · rest) then '_' :: later else later

/-- The name in lower case, its words joined by underscores. -/
def snakeCase (cs : List Char) : List Char :=
  snakeCaseFrom none cs

/-- A name without leading underscores and with its first letter in upper case.  A name of
underscores alone stays. -/
def constantName (cs : List Char) : List Char :=
  match cs.dropWhile (· == '_') with
  | [] => cs
  | bare => capitalize bare

end Chars

namespace Name

/-- `Point_` becomes `Point`, `my_type` becomes `MyType`. -/
def camelCase (name : String) : String :=
  String.ofList (Chars.camelCase name.toList)

/-- `getValue` becomes `get_value`, `HTTPServer` becomes `http_server`. -/
def snakeCase (name : String) : String :=
  String.ofList (Chars.snakeCase name.toList)

/-- The Ruby constant for a C++ constant or enum value. -/
def constant (name : String) : String :=
  String.ofList (Chars.constantName name.toList)

end Name

end Bindery
