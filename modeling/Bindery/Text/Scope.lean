import Bindery.Text.Word

/-!
# Scopes and template argument lists

The spelling of a C++ name is read as a path of components, each with or without a template
argument list.  Brackets are counted, never matched by kind, and the count may fall below zero.
-/

set_option autoImplicit false

namespace Bindery

namespace Chars

/-- How a character moves the depth of angle brackets and parentheses. -/
def nesting (c : Char) : Int :=
  if c = '<' ∨ c = '(' then 1 else if c = '>' ∨ c = ')' then -1 else 0

/-- How a character moves the depth of angle brackets alone. -/
def angleNesting (c : Char) : Int :=
  if c = '<' then 1 else if c = '>' then -1 else 0

/-- The number of `::` in a text, counted from the left without overlap. -/
def scopeCount : List Char → Nat
  | ':' :: ':' :: rest => scopeCount rest + 1
  | _ :: rest => scopeCount rest
  | [] => 0

/-- Puts a character in front of the first piece of a split text. -/
def consFirst (c : Char) : List (List Char) → List (List Char)
  | [] => [[c]]
  | piece :: pieces => (c :: piece) :: pieces

/-- The pieces between the `::` at depth zero, untrimmed. -/
def scopePieces (depth : Int) : List Char → List (List Char)
  | [] => [[]]
  | [c] => [[c]]
  | c :: d :: rest =>
      if c = ':' ∧ depth = 0 ∧ d = ':' then
        [] :: scopePieces depth rest
      else
        consFirst c (scopePieces (depth + nesting c) (d :: rest))

/-- The components of a name: what stands between the `::` outside brackets, trimmed. -/
def splitScope (cs : List Char) : List (List Char) :=
  (scopePieces 0 cs).map trim

/-- The pieces between the commas at depth zero, untrimmed. -/
def argumentPieces (depth : Int) : List Char → List (List Char)
  | [] => [[]]
  | c :: rest =>
      if c = ',' ∧ depth = 0 then
        [] :: argumentPieces depth rest
      else
        consFirst c (argumentPieces (depth + nesting c) rest)

/-- The arguments of a template argument list: what stands between the commas outside brackets,
trimmed, blank ones left out. -/
def templateArgs (cs : List Char) : List (List Char) :=
  ((argumentPieces 0 cs).map trim).filter fun arg => !arg.isEmpty

/-- Splits at the `>` that closes a list in which `depth` further lists are open. -/
def splitAtClose (depth : Nat) : List Char → Option (List Char × List Char)
  | [] => none
  | c :: rest =>
      if c = '>' then
        match depth with
        | 0 => some ([], rest)
        | depth + 1 => (splitAtClose depth rest).map fun (inner, after) => (c :: inner, after)
      else
        (splitAtClose (if c = '<' then depth + 1 else depth) rest).map
          fun (inner, after) => (c :: inner, after)

/-- Splits `base<args>rest` at its first template argument list. -/
def splitTemplate (cs : List Char) : Option (List Char × List Char × List Char) :=
  match cs.dropWhile (· != '<') with
  | [] => none
  | _ :: inside =>
      (splitAtClose 0 inside).map fun (args, rest) => (cs.takeWhile (· != '<'), args, rest)

/-- The characters at angle depth zero, the brackets themselves left out. -/
def outsideAngles (depth : Int) : List Char → List Char
  | [] => []
  | c :: rest =>
      let later := outsideAngles (depth + angleNesting c) rest
      if angleNesting c = 0 ∧ depth = 0 then c :: later else later

/-- The spelling without its template argument lists, trimmed. -/
def stripTemplateArgs (cs : List Char) : List Char :=
  trim (outsideAngles 0 cs)

/-- The words that may stand in front of a type's name. -/
def elaborations : List (List Char) :=
  ["const ".toList, "class ".toList, "struct ".toList, "union ".toList, "enum ".toList]

/-- The last component of a name without template arguments. -/
def simpleName (cs : List Char) : List Char :=
  let bare := elaborations.foldl (fun text word => dropCopies word text) (trim cs)
  match (splitScope bare).getLast? with
  | some last => stripTemplateArgs last
  | none => []

end Chars

namespace Text

/-- The components of a name, split at the `::` outside brackets. -/
def splitScope (s : String) : List String :=
  (Chars.splitScope s.toList).map String.ofList

def joinScope (components : List String) : String :=
  "::".intercalate components

/-- Joins the arguments of a template. -/
def joinArgs (args : List String) : String :=
  ", ".intercalate args

/-- Base, arguments and rest of `base<args>rest`. -/
def splitTemplate (s : String) : Option (String × String × String) :=
  (Chars.splitTemplate s.toList).map fun (base, args, rest) =>
    (String.ofList base, String.ofList args, String.ofList rest)

/-- The arguments of a template argument list, split at the commas outside brackets. -/
def templateArgs (s : String) : List String :=
  (Chars.templateArgs s.toList).map String.ofList

/-- The spelling without its template argument lists. -/
def stripTemplateArgs (s : String) : String :=
  String.ofList (Chars.stripTemplateArgs s.toList)

/-- The last component of a name without template arguments. -/
def simpleName (s : String) : String :=
  String.ofList (Chars.simpleName s.toList)

/-- The spellings of the builtin arithmetic and character types. -/
def primitives : List String :=
  ["void", "bool", "char", "signed char", "unsigned char", "wchar_t", "char16_t", "char32_t",
   "short", "unsigned short", "int", "unsigned int", "long", "unsigned long", "long long",
   "unsigned long long", "float", "double", "long double"]

/-- Whether a spelling names a builtin type, qualifiers aside. -/
def isPrimitive (s : String) : Bool :=
  primitives.contains (dropCopies "volatile " (dropCopies "const " (trim s)))

end Text

end Bindery
