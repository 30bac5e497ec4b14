/-!
# Blank characters

The characters that Unicode lists as white space, and the trimming of texts by them.  Texts are
lists of characters here; the functions on `String` at the end are their images.
-/

set_option autoImplicit false

namespace Bindery

namespace Chars

/-- The ranges of the Unicode property White_Space, first and last code point of each. -/
def blankRanges : List (Nat × Nat) :=
  [(0x09, 0x0D), (0x20, 0x20), (0x85, 0x85), (0xA0, 0xA0), (0x1680, 0x1680), (0x2000, 0x200A),
   (0x2028, 0x2029), (0x202F, 0x202F), (0x205F, 0x205F), (0x3000, 0x3000)]

/-- Whether a character is white space in the sense of Unicode. -/
def isBlank (c : Char) : Bool :=
  blankRanges.any fun (first, last) => first ≤ c.toNat && c.toNat ≤ last

/-- The text without the white space at its front. -/
def trimStart (cs : List Char) : List Char :=
  cs.dropWhile isBlank

/-- The text without the white space at its end. -/
def trimEnd (cs : List Char) : List Char :=
  (cs.reverse.dropWhile isBlank).reverse

/-- The text without the white space at either end. -/
def trim (cs : List Char) : List Char :=
  trimEnd (trimStart cs)

def endsWith (tail cs : List Char) : Bool :=
  tail.isSuffixOf cs

/-- The text after `head`, if it starts so. -/
def dropPrefix? (head cs : List Char) : Option (List Char) :=
  if head.isPrefixOf cs then some (cs.drop head.length) else none

/-- The text before `tail`, if it ends so. -/
def dropSuffix? (tail cs : List Char) : Option (List Char) :=
  if tail.isSuffixOf cs then some (cs.take (cs.length - tail.length)) else none

def dropCopies (head cs : List Char) : List Char :=
  if _h : 0 < head.length ∧ head.isPrefixOf cs = true then
    dropCopies head (cs.drop head.length)
  else
    cs
termination_by cs.length
decreasing_by
  have := (List.isPrefixOf_iff_prefix.mp _h.2).length_le
  simp only [List.length_drop]
  omega

/-- Whether `part` stands somewhere in a text. -/
def containsText (part : List Char) : List Char → Bool
  | [] => part.isEmpty
  | c :: rest => part.isPrefixOf (c :: rest) || containsText part rest

def dropEndWhile (p : Char → Bool) (cs : List Char) : List Char :=
  (cs.reverse.dropWhile p).reverse

end Chars

namespace Text

/-- Trims Unicode white space from both ends. -/
def trim (s : String) : String :=
  String.ofList (Chars.trim s.toList)

/-- Trims Unicode white space from the end. -/
def trimEnd (s : String) : String :=
  String.ofList (Chars.trimEnd s.toList)

/-- Trims Unicode white space from the front. -/
def trimStart (s : String) : String :=
  String.ofList (Chars.trimStart s.toList)

/-- Removes the copies of `head` that a text starts with. -/
def dropCopies (head s : String) : String :=
  String.ofList (Chars.dropCopies head.toList s.toList)

/-- Removes the copies of the character `c` that a text ends with. -/
def dropEndCopies (c : Char) (s : String) : String :=
  String.ofList (Chars.dropEndWhile (· == c) s.toList)

/-- The text after `head`, if it starts so. -/
def dropPrefix? (head s : String) : Option String :=
  (Chars.dropPrefix? head.toList s.toList).map String.ofList

/-- The text before `tail`, if it ends so. -/
def dropSuffix? (tail s : String) : Option String :=
  (Chars.dropSuffix? tail.toList s.toList).map String.ofList

/-- Whether `part` stands somewhere in a text. -/
def containsText (part s : String) : Bool :=
  Chars.containsText part.toList s.toList

def startsWith (head s : String) : Bool :=
  head.toList.isPrefixOf s.toList

def endsWith (tail s : String) : Bool :=
  tail.toList.isSuffixOf s.toList

end Text

end Bindery
