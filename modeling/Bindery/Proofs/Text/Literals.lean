import Bindery.Proofs.Text.NameUses

/-!
# String and character literals

The literals of a C++ text, found by reading it token by token: comments, words and numbers are
passed over as wholes, so that a quote inside of them opens nothing.  What writes names out looks
for words only; it leaves the literals as they are if no name that it looks for touches one.
-/

set_option autoImplicit false

namespace Bindery

namespace Chars

/-! ## Tokens -/

/-- A character of a word, which may be one beyond ASCII. -/
def isWordChar (c : Char) : Bool :=
  isIdentChar c || 128 ≤ c.toNat

/-- The number of characters up to the end of the first copy of a text. -/
def sizeUpTo? (ending : List Char) : List Char → Option Nat
  | [] => none
  | c :: rest =>
      if ending.isPrefixOf (c :: rest) then some ending.length
      else (sizeUpTo? ending rest).map (· + 1)

/-- The number of characters up to the closing quote.  A backslash takes the next character with
it, and no literal goes over the end of its line. -/
def sizeToQuote? (quote : Char) : List Char → Option Nat
  | '\\' :: _ :: rest => (sizeToQuote? quote rest).map (· + 2)
  | c :: rest =>
      if c = quote then some 1
      else if c = '\n' then none
      else (sizeToQuote? quote rest).map (· + 1)
  | [] => none

/-- A character that the delimiter of a raw string literal may have. -/
def isDelimiterChar (c : Char) : Bool :=
  !(isBlank c || ['(', ')', '\\', '"'].contains c)

/-- The number of characters behind the opening quote of a raw string literal, which ends at the
bracket and the quote with the delimiter between them. -/
def sizeOfRaw? (cs : List Char) : Option Nat :=
  let delimiter := cs.takeWhile isDelimiterChar
  match cs.drop delimiter.length with
  | '(' :: body =>
      (sizeUpTo? (')' :: delimiter ++ ['"']) body).map (· + delimiter.length + 1)
  | _ => none

/-- The words that tell the encoding of a literal when they stand directly before its quote. -/
def encodings : List (List Char) :=
  [[], ['L'], ['u'], ['U'], ['u', '8']]

/-- The number of characters of the literal with which a text begins. -/
def literalSize? (cs : List Char) : Option Nat :=
  let word := cs.takeWhile isWordChar
  match cs.drop word.length with
  | '"' :: rest =>
      if encodings.contains word then (sizeToQuote? '"' rest).map (· + word.length + 1)
      else if (encodings.map (· ++ ['R'])).contains word then
        (sizeOfRaw? rest).map (· + word.length + 1)
      else none
  | '\'' :: rest =>
      if encodings.contains word then (sizeToQuote? '\'' rest).map (· + word.length + 1) else none
  | _ => none

/-- The number of characters of the rest of a number, digit separators and exponents included. -/
def numberSize : List Char → Nat
  | [] => 0
  | [c] => if isWordChar c || c == '.' then 1 else 0
  | c :: d :: rest =>
      let separates := c == '\'' && isWordChar d
      let isExponent := ['e', 'E', 'p', 'P'].contains c && ['+', '-'].contains d
      if separates || isExponent then numberSize rest + 2
      else if isWordChar c || c == '.' then numberSize (d :: rest) + 1
      else 0

/-- The number of characters of the comment, the number, the word or the single character with which
a text begins. -/
def plainSize (cs : List Char) : Nat :=
  match cs with
  | '/' :: '/' :: rest => (rest.takeWhile (· != '\n')).length + 2
  | '/' :: '*' :: rest => (sizeUpTo? ['*', '/'] rest).getD rest.length + 2
  | '.' :: d :: rest => if d.isDigit then numberSize (d :: rest) + 1 else 1
  | c :: rest =>
      if c.isDigit then numberSize rest + 1 else max 1 (cs.takeWhile isWordChar).length
  | [] => 0

/-- The literals of a text from place `pos` on, each with its place. -/
def literalsFrom (pos : Nat) : List Char → List (Nat × List Char)
  | [] => []
  | c :: rest =>
      let literal := literalSize? (c :: rest)
      let size := literal.getD (plainSize (c :: rest))
      let token := c :: rest.take (size - 1)
      let later := literalsFrom (pos + token.length) (rest.drop (size - 1))
      if literal.isSome then (pos, token) :: later else later
termination_by cs => cs.length
decreasing_by
  simp only [List.length_drop, List.length_cons]
  omega

/-- The string and character literals of a text, each with its place. -/
def literals (cs : List Char) : List (Nat × List Char) :=
  literalsFrom 0 cs

/-- Quotes inside of literals and numbers open nothing. -/
example : literals "u8\"\\\"\", 1'0, R\"d(\")d\", n".toList =
    [(0, "u8\"\\\"\"".toList), (13, "R\"d(\")d\"".toList)] := by
  decide +kernel

/-! ## Where they stand -/

theorem HoldsFrom.mono {source : List Char} {first second : Nat} (onward : first ≤ second)
    {entries : List (Nat × List Char)} (holds : HoldsFrom source second entries) :
    HoldsFrom source first entries := by
  cases entries with
  | nil => trivial
  | cons entry later => exact ⟨onward.trans holds.1, holds.2⟩

theorem holdsFrom_literalsFrom (front cs : List Char) :
    HoldsFrom (front ++ cs) front.length (literalsFrom front.length cs) := by
  match cs with
  | [] =>
      rw [literalsFrom]
      trivial
  | c :: rest =>
      rw [literalsFrom]
      generalize (literalSize? (c :: rest)).getD (plainSize (c :: rest)) - 1 = size
      have parts : front ++ c :: rest = (front ++ c :: rest.take size) ++ rest.drop size := by simp
      have later := holdsFrom_literalsFrom (front ++ c :: rest.take size) (rest.drop size)
      rw [← parts, List.length_append] at later
      split
      · refine ⟨Nat.le_refl _, by simp, ?_, later⟩
        rw [List.drop_left]
        exact ⟨rest.drop size, by simp⟩
      · exact later.mono (Nat.le_add_right _ _)
termination_by cs.length
decreasing_by
  simp only [List.length_drop, List.length_cons]
  omega

theorem holdsFrom_literals (cs : List Char) : HoldsFrom cs 0 (literals cs) :=
  holdsFrom_literalsFrom [] cs

/-- Whether a name stands free where it shares a character with a literal. -/
def TouchesLiteral (cs : List Char) (name : String) : Prop :=
  ∃ place, FreeAt cs name place ∧ ∃ entry ∈ literals cs,
    place < entry.1 + entry.2.length ∧ entry.1 < place + name.length

theorem touchesLiteral_iff {cs : List Char} {name : String} :
    (∃ place ∈ findWord cs name.toList, precededByScope cs place = false ∧ ∃ entry ∈ literals cs,
      place < entry.1 + entry.2.length ∧ entry.1 < place + name.length) ↔ TouchesLiteral cs name :=
  ⟨fun ⟨place, found, outside, met⟩ => ⟨place, ⟨found, outside⟩, met⟩,
    fun ⟨place, ⟨found, outside⟩, met⟩ => ⟨place, found, outside, met⟩⟩

instance (cs : List Char) (name : String) : Decidable (TouchesLiteral cs name) :=
  decidable_of_iff _ touchesLiteral_iff

theorem hasInOrder_singleton {text cs : List Char} : HasInOrder [text] cs ↔ text <:+: cs :=
  ⟨fun ⟨front, back, whole, _⟩ => ⟨front, back, whole.symm⟩,
    fun ⟨front, back, whole⟩ => ⟨front, back, whole.symm, trivial⟩⟩

end Chars

/-- Literals that none of the names touches are all kept, in their order. -/
theorem NameUse.hasInOrder_literals {literal : String} {uses : List NameUse}
    (apart : ∀ use ∈ uses, ∀ name ∈ use.names, ¬ Chars.TouchesLiteral literal.toList name) :
    Chars.HasInOrder ((Chars.literals literal.toList).map (·.2))
      (qualifyAll literal uses).toList := by
  apply hasInOrder_qualifyAll (Chars.holdsFrom_literals literal.toList)
  intro use member name isName place free entry isLiteral
  by_cases behind : place + name.length ≤ entry.1
  · exact .inl behind
  · by_cases before : entry.1 + entry.2.length ≤ place
    · exact .inr before
    · have touches : Chars.TouchesLiteral literal.toList name :=
        ⟨place, free, entry, isLiteral, by omega, by omega⟩
      exact absurd touches (apart use member name isName)

end Bindery
