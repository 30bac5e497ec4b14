import Bindery.Text.Blank

/-!
# Words

An identifier character is an ASCII letter, an ASCII digit or the underscore.  This module finds a
given word in a text where no identifier character touches it, and lists the identifiers of a
text.  Places are counted in characters; `byteOffset` turns a place into an offset in UTF-8.
-/

set_option autoImplicit false

namespace Bindery

namespace Chars

/-- An ASCII letter, an ASCII digit or the underscore. -/
def isIdentChar (c : Char) : Bool :=
  c.isAlphanum || c == '_'

/-- The number of UTF-8 bytes before place `i`. -/
def byteOffset (cs : List Char) (i : Nat) : Nat :=
  (cs.take i).foldr (fun c size => c.utf8Size + size) 0

/-- The number of characters before byte `offset`; an offset inside a character counts it. -/
def placeOfByte : List Char → Nat → Nat
  | [], _ => 0
  | c :: rest, offset => if offset = 0 then 0 else 1 + placeOfByte rest (offset - c.utf8Size)

/-- Whether a neighbour of a word leaves it whole: there is none, or it is no identifier
character. -/
def isBoundary (neighbour : Option Char) : Bool :=
  !(neighbour.any isIdentChar)

/-- The places where `word` stands as a whole word, from place `pos` on.  `before` is the character
to the left.  After each occurrence, whole or not, the search goes on behind it: `skip` characters
of it are still to pass. -/
def findWordFrom (word : List Char) (before : Option Char) (pos skip : Nat) :
    List Char → List Nat
  | [] => []
  | c :: rest =>
      match skip with
      | skip + 1 => findWordFrom word (some c) (pos + 1) skip rest
      | 0 =>
          if word.isPrefixOf (c :: rest) then
            let later := findWordFrom word (some c) (pos + 1) (word.length - 1) rest
            if isBoundary before && isBoundary ((c :: rest).drop word.length).head? then
              pos :: later
            else
              later
          else
            findWordFrom word (some c) (pos + 1) 0 rest

/-- The places where `word` stands as a whole word.  The empty word stands nowhere. -/
def findWord (cs word : List Char) : List Nat :=
  if word.isEmpty then [] else findWordFrom word none 0 0 cs

/-- Whether `word` stands somewhere as a whole word. -/
def containsWord (cs word : List Char) : Bool :=
  !(findWord cs word).isEmpty

/-- Whether the text before place `pos` ends in `::`, white space aside. -/
def precededByScope (cs : List Char) (pos : Nat) : Bool :=
  endsWith [':', ':'] (trimEnd (cs.take pos))

/-- The maximal runs of identifier characters from place `pos` on, each with its place. -/
def runsFrom (pos : Nat) : List Char → List (Nat × List Char)
  | [] => []
  | c :: rest =>
      if isIdentChar c then
        let run := c :: rest.takeWhile isIdentChar
        (pos, run) :: runsFrom (pos + run.length) (rest.dropWhile isIdentChar)
      else
        runsFrom (pos + 1) rest
termination_by cs => cs.length
decreasing_by
  · have := (List.dropWhile_suffix (l := rest) isIdentChar).length_le
    simp only [List.length_cons]
    omega
  · simp

def startsWithDigit (run : List Char) : Bool :=
  run.head?.any Char.isDigit

/-- The identifiers of a text with their places: its maximal runs of identifier characters,
those that start with a digit left out. -/
def identifiers (cs : List Char) : List (Nat × List Char) :=
  (runsFrom 0 cs).filter fun entry => !startsWithDigit entry.2

end Chars

namespace Text

/-- The byte offsets at which `word` stands as a whole word in `s`. -/
def findWord (s word : String) : List Nat :=
  (Chars.findWord s.toList word.toList).map (Chars.byteOffset s.toList)

/-- Whether `word` stands somewhere in `s` as a whole word. -/
def containsWord (s word : String) : Bool :=
  Chars.containsWord s.toList word.toList

/-- Whether the text before byte `offset` ends in `::`, white space aside. -/
def precededByScope (s : String) (offset : Nat) : Bool :=
  Chars.precededByScope s.toList (Chars.placeOfByte s.toList offset)

/-- The identifiers of `s` with their byte offsets. -/
def identifiers (s : String) : List (Nat × String) :=
  (Chars.identifiers s.toList).map fun (place, run) =>
    (Chars.byteOffset s.toList place, String.ofList run)

end Text

end Bindery
