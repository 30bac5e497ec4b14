import Bindery.Text.Blank
import Bindery.Unicode.CaseFold
import Bindery.Unicode.Category

/-!
# Regular expressions

The expressions that symbol rules are written in, and the sets of characters they speak about.
Sets are kept as they are written and decided character by character.
-/

set_option autoImplicit false

namespace Bindery

namespace Regex

/-- A set of characters. -/
inductive CharClass where
  | range (first last : Char)
  | digit
  | blank
  | word
  | category (names : List String)
  | script (name : String)
  | property (name : String)
  | none
  | union (a b : CharClass)
  | inter (a b : CharClass)
  | diff (a b : CharClass)
  | symmDiff (a b : CharClass)
  | compl (a : CharClass)
  | fold (asciiOnly : Bool) (a : CharClass)
deriving Repr, DecidableEq

namespace CharClass

/-- The characters that count as `c` when case does not. -/
def orbit (asciiOnly : Bool) (c : Char) : List Char :=
  if asciiOnly then
    if c.isUpper then [c, Char.ofNat (c.toNat + 32)]
    else if c.isLower then [c, Char.ofNat (c.toNat - 32)]
    else [c]
  else
    c :: Unicode.caseOrbit c

def holds : CharClass → Char → Bool
  | range first last, c => first ≤ c && c ≤ last
  | digit, c => Unicode.isDigit c
  | blank, c => Chars.isBlank c
  | word, c => Unicode.isWord c
  | category names, c => names.any (Unicode.hasCategory · c.toNat)
  | script name, c => Unicode.inRanges ((Unicode.scripts.lookup name).getD []) c.toNat
  | property name, c => (Unicode.hasProperty name c.toNat).getD false
  | none, _ => false
  | union a b, c => a.holds c || b.holds c
  | inter a b, c => a.holds c && b.holds c
  | diff a b, c => a.holds c && !b.holds c
  | symmDiff a b, c => a.holds c != b.holds c
  | compl a, c => !a.holds c
  | fold asciiOnly a, c => (orbit asciiOnly c).any a.holds

def single (c : Char) : CharClass :=
  range c c

/-- The union of several ranges. -/
def ofRanges (ranges : List (Char × Char)) : CharClass :=
  ranges.foldr (fun (first, last) rest => union (range first last) rest) none

end CharClass

/-- Which side of a word a place may be at. -/
inductive WordEdge where
  | boundary
  | inside
  | start
  | stop
  | startHalf
  | stopHalf
deriving Repr, DecidableEq

/-- A condition on a place in the text. -/
inductive Assertion where
  | textStart
  | textEnd
  | lineStart (crlf : Bool)
  | lineEnd (crlf : Bool)
  | word (edge : WordEdge) (asciiOnly : Bool)
deriving Repr, DecidableEq

namespace Assertion

/-- Whether the sides of a place, word characters or not, make the given edge. -/
def atEdge : WordEdge → Bool → Bool → Bool
  | .boundary, before, after => before != after
  | .inside, before, after => before == after
  | .start, before, after => !before && after
  | .stop, before, after => before && !after
  | .startHalf, before, _ => !before
  | .stopHalf, _, after => !after

/-- Whether the condition holds between the characters `before` and `after`. -/
def holds : Assertion → Option Char → Option Char → Bool
  | textStart, before, _ => before.isNone
  | textEnd, _, after => after.isNone
  | lineStart false, before, _ => before.isNone || before == some '\n'
  | lineEnd false, _, after => after.isNone || after == some '\n'
  | lineStart true, before, after =>
      before.isNone || before == some '\n' || (before == some '\r' && after != some '\n')
  | lineEnd true, before, after =>
      after.isNone || after == some '\r' || (after == some '\n' && before != some '\r')
  | word edge asciiOnly, before, after =>
      let isWord (c : Char) : Bool :=
        if asciiOnly then c.isAlphanum || c == '_' else Unicode.isWord c
      atEdge edge (before.any isWord) (after.any isWord)

end Assertion

/-- A regular expression. -/
inductive Node where
  | empty
  | char (set : CharClass)
  | look (assertion : Assertion)
  | capture (index : Nat) (inner : Node)
  | seq (first second : Node)
  | alt (first second : Node)
  | repeat (inner : Node) (min : Nat) (max : Option Nat) (greedy : Bool)
deriving Repr, DecidableEq

namespace Node

/-- The expressions one after the other. -/
def ofSeq : List Node → Node
  | [] => empty
  | [node] => node
  | node :: later => seq node (ofSeq later)

/-- The expressions as alternatives, the first preferred. -/
def ofAlts : List Node → Node
  | [] => empty
  | [node] => node
  | node :: later => alt node (ofAlts later)

/-- Whether every match consumes a character. -/
def consumes : Node → Bool
  | empty => false
  | char _ => true
  | look _ => false
  | capture _ inner => inner.consumes
  | seq first second => first.consumes || second.consumes
  | alt first second => first.consumes && second.consumes
  | .repeat inner min _ _ => 0 < min && inner.consumes

end Node

end Regex

end Bindery
