import Bindery.Text.Blank

/-!
# Replacement texts

A new name may speak of the groups of the rule that matched: a backslash and a digit stand for a
group.  Before use such a text is put into a form in which `$` alone is special: `$$` stands for a
dollar sign, and a digit in braces behind a `$` for a group.
-/

set_option autoImplicit false

namespace Bindery

namespace Chars

/-- Puts a new name into the form in which `$` alone is special. -/
def replacementTemplate : List Char → List Char
  | [] => []
  | '$' :: rest => '$' :: '$' :: replacementTemplate rest
  | '\\' :: rest =>
      match rest with
      | [] => ['\\']
      | d :: later =>
          if d.isDigit then
            '$' :: '\x7b' :: d :: '\x7d' :: replacementTemplate later
          else
            '\\' :: replacementTemplate (d :: later)
  | c :: rest => c :: replacementTemplate rest

/-- Writes out a text in which `$` alone is special; a group that took no part is empty. -/
def expandReplacement (group : Nat → Option (List Char)) : List Char → List Char
  | [] => []
  | '$' :: '$' :: rest => '$' :: expandReplacement group rest
  | '$' :: '\x7b' :: d :: '\x7d' :: rest =>
      if d.isDigit then
        (group (d.toNat - '0'.toNat)).getD [] ++ expandReplacement group rest
      else
        '$' :: '\x7b' :: d :: '\x7d' :: expandReplacement group rest
  | c :: rest => c :: expandReplacement group rest

end Chars

namespace Text

/-- Puts a new name into the form in which `$` alone is special. -/
def replacementTemplate (s : String) : String :=
  String.ofList (Chars.replacementTemplate s.toList)

end Text

end Bindery
