import Bindery.Text.Blank

/-!
# File patterns

A pattern matches a text as a whole: `?` stands for a character, `*` for any text, `[...]` for one
of some characters, `[!...]` for any other, and `**` as a whole component for any number of
components.
-/

set_option autoImplicit false

namespace Bindery

namespace Glob

/-- What may stand in brackets. -/
inductive Choice where
  | single (c : Char)
  | range (first last : Char)
deriving Repr, DecidableEq

def Choice.covers : Choice → Char → Bool
  | single d, c => c == d
  | range first last, c => first ≤ c && c ≤ last

/-- The parts of a pattern. -/
inductive Token where
  | char (c : Char)
  | anyChar
  | within (choices : List Choice)
  | outside (choices : List Choice)
  | anyText
  | anyComponents
deriving Repr, DecidableEq

/-- What can be wrong with a pattern. -/
inductive Fault where
  | tooManyStars
  | partialComponent
  | openBracket
deriving Repr, DecidableEq

def Fault.message : Fault → String
  | tooManyStars => "wildcards are either regular \x60*\x60 or recursive \x60**\x60"
  | partialComponent => "recursive wildcards must form a single path component"
  | openBracket => "invalid range pattern"

/-- Where and why a text is no pattern. -/
structure PatternError where
  position : Nat
  fault : Fault
deriving Repr, DecidableEq

def PatternError.message (error : PatternError) : String :=
  "Pattern syntax error near position " ++ toString error.position ++ ": " ++ error.fault.message

/-- The choices in brackets: three characters with `-` between are a range. -/
def choices : List Char → List Choice
  | first :: '-' :: last :: rest => .range first last :: choices rest
  | c :: rest => .single c :: choices rest
  | [] => []

/-- Where the reader of a pattern stands: at the start of a component, inside one, or in brackets
that were opened at a position, with the characters so far, the last first. -/
inductive Reading where
  | componentStart
  | component
  | brackets (opened : Nat) (negated : Bool) (members : List Char)
deriving Repr, DecidableEq

def bracketToken (negated : Bool) (members : List Char) : Token :=
  if negated then .outside (choices members) else .within (choices members)

def readTokens : Reading → Nat → List Char → Except PatternError (List Token)
  | .brackets opened _ _, _, [] => .error ⟨opened, .openBracket⟩
  | .brackets opened negated members, position, c :: rest =>
      if c = ']' then do
        return bracketToken negated members.reverse
          :: (← readTokens .component (position + 1) rest)
      else
        readTokens (.brackets opened negated (c :: members)) (position + 1) rest
  | _, _, [] => return []
  | _, position, '*' :: '*' :: '*' :: _ => .error ⟨position + 2, .tooManyStars⟩
  | .component, position, '*' :: '*' :: _ => .error ⟨position - 1, .partialComponent⟩
  | .componentStart, position, '*' :: '*' :: '/' :: rest => do
      return .anyComponents :: (← readTokens .componentStart (position + 3) rest)
  | .componentStart, _, ['*', '*'] => return [.anyComponents]
  | .componentStart, position, '*' :: '*' :: _ => .error ⟨position + 2, .partialComponent⟩
  | _, position, '*' :: rest => do
      return .anyText :: (← readTokens .component (position + 1) rest)
  | _, position, '?' :: rest => do
      return .anyChar :: (← readTokens .component (position + 1) rest)
  | _, position, '[' :: '!' :: c :: rest =>
      readTokens (.brackets position true [c]) (position + 3) rest
  | _, position, ['[', '!'] => .error ⟨position, .openBracket⟩
  | _, position, '[' :: c :: rest =>
      readTokens (.brackets position false [c]) (position + 2) rest
  | _, position, ['['] => .error ⟨position, .openBracket⟩
  | _, position, '/' :: rest => do
      return .char '/' :: (← readTokens .componentStart (position + 1) rest)
  | _, position, c :: rest => do
      return .char c :: (← readTokens .component (position + 1) rest)

def parse (pattern : String) : Except PatternError (List Token) :=
  readTokens .componentStart 0 pattern.toList

/-- Whether a token that stands for one character stands for this one. -/
def Token.accepts : Token → Char → Bool
  | char d, c => c == d
  | anyChar, _ => true
  | within choices, c => choices.any (·.covers c)
  | outside choices, c => !choices.any (·.covers c)
  | anyText, _ => false
  | anyComponents, _ => false

/-- What is left of a text after each of its slashes. -/
def afterSlashes : List Char → List (List Char)
  | [] => []
  | c :: rest => if c = '/' then rest :: afterSlashes rest else afterSlashes rest

/-- What is left of a text after each of its starts. -/
def suffixes : List Char → List (List Char)
  | [] => [[]]
  | c :: rest => (c :: rest) :: suffixes rest

/-- Whether tokens match a text as a whole.  `**` ends where a component starts, or with the
text. -/
def matchesText : List Token → List Char → Bool
  | [], text => text.isEmpty
  | .anyText :: rest, text => (suffixes text).any (matchesText rest)
  | .anyComponents :: rest, text =>
      (text :: afterSlashes text ++ [[]]).any (matchesText rest)
  | token :: rest, text =>
      match text with
      | [] => false
      | c :: text => token.accepts c && matchesText rest text

def matchesAll (tokens : List Token) (text : String) : Bool :=
  matchesText tokens text.toList

/-- The text that a pattern without special characters stands for. -/
def literal? : List Token → Option (List Char)
  | [] => some []
  | .char c :: rest => (literal? rest).map (c :: ·)
  | _ => none

end Glob

end Bindery
