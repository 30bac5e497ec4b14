import Bindery.Unicode.Extra
import Bindery.Unicode.Letter
import Bindery.Unicode.Mark
import Bindery.Unicode.Script
import Bindery.Unicode.Sign

/-!
# Unicode properties

General categories and a few further properties of characters, decided by tables of ranges.
-/

set_option autoImplicit false

namespace Bindery

namespace Unicode

/-- Whether a code point lies in one of the ranges. -/
def inRanges (ranges : List (Nat × Nat)) (code : Nat) : Bool :=
  ranges.any fun (first, last) => first ≤ code && code ≤ last

/-- Whether a code point is a letter of the given case in a run of alternating cases. -/
def alternates (upper : Bool) (code : Nat) : Bool :=
  alternatingLetters.any fun (first, last, upperFirst) =>
    first ≤ code && code ≤ last && ((code - first) % 2 == 0) == (upperFirst == upper)

/-- The general categories by their two-letter names, each with its ranges. -/
def categories : List (String × String × List (Nat × Nat)) :=
  [("lu", "uppercaseletter", uppercaseLetter), ("ll", "lowercaseletter", lowercaseLetter),
   ("lt", "titlecaseletter", titlecaseLetter), ("lm", "modifierletter", modifierLetter),
   ("lo", "otherletter", otherLetter), ("mn", "nonspacingmark", nonspacingMark),
   ("mc", "spacingmark", spacingMark), ("me", "enclosingmark", enclosingMark),
   ("nd", "decimalnumber", decimalNumber), ("nl", "letternumber", letterNumber),
   ("no", "othernumber", otherNumber), ("pc", "connectorpunctuation", connectorPunctuation),
   ("pd", "dashpunctuation", dashPunctuation), ("ps", "openpunctuation", openPunctuation),
   ("pe", "closepunctuation", closePunctuation),
   ("pi", "initialpunctuation", initialPunctuation),
   ("pf", "finalpunctuation", finalPunctuation), ("po", "otherpunctuation", otherPunctuation),
   ("sm", "mathsymbol", mathSymbol), ("sc", "currencysymbol", currencySymbol),
   ("sk", "modifiersymbol", modifierSymbol), ("so", "othersymbol", otherSymbol),
   ("zs", "spaceseparator", spaceSeparator), ("zl", "lineseparator", lineSeparator),
   ("zp", "paragraphseparator", paragraphSeparator), ("cc", "control", control),
   ("cf", "format", format), ("cs", "surrogate", surrogate), ("co", "privateuse", privateUse)]

/-- Whether a code point has the general category of the given two-letter name. -/
def hasCategory (name : String) (code : Nat) : Bool :=
  inRanges ((categories.lookup name).elim [] (·.2)) code
    || (name == "lu" && alternates true code) || (name == "ll" && alternates false code)

/-- The two-letter names of the categories that a one-letter name covers, and of other groups. -/
def categoryGroups : List (String × String × List String) :=
  [("l", "letter", ["lu", "ll", "lt", "lm", "lo"]), ("lc", "casedletter", ["lu", "ll", "lt"]),
   ("m", "mark", ["mn", "mc", "me"]), ("n", "number", ["nd", "nl", "no"]),
   ("p", "punctuation", ["pc", "pd", "ps", "pe", "pi", "pf", "po"]),
   ("s", "symbol", ["sm", "sc", "sk", "so"]), ("z", "separator", ["zs", "zl", "zp"])]

/-- The names that the categories have besides the usual two. -/
def categoryAliases : List (String × List String) :=
  [("punct", ["pc", "pd", "ps", "pe", "pi", "pf", "po"]), ("digit", ["nd"]), ("cntrl", ["cc"]),
   ("combiningmark", ["mn", "mc", "me"])]

def scripts : List (String × List (Nat × Nat)) :=
  [("latin", latin), ("latn", latin), ("greek", greek), ("grek", greek), ("cyrillic", cyrillic),
   ("cyrl", cyrillic), ("armenian", armenian), ("armn", armenian), ("hebrew", hebrew),
   ("hebr", hebrew), ("arabic", arabic), ("arab", arabic), ("devanagari", devanagari),
   ("deva", devanagari), ("thai", thai), ("georgian", georgian), ("geor", georgian),
   ("hangul", hangul), ("hang", hangul), ("hiragana", hiragana), ("hira", hiragana),
   ("katakana", katakana), ("kana", katakana), ("han", han), ("hani", han)]

/-- A character without any category is unassigned. -/
def isAssigned (code : Nat) : Bool :=
  categories.any fun (name, _) => hasCategory name code

/-- Whether a code point is a letter of any kind. -/
def isLetter (code : Nat) : Bool :=
  ["lu", "ll", "lt", "lm", "lo"].any (hasCategory · code)

/-- Letters, letter-like numbers and the characters used like letters. -/
def isAlphabetic (code : Nat) : Bool :=
  isLetter code || inRanges letterNumber code || inRanges alphabeticExtras code

/-- Whether a code point stands for a number. -/
def isNumeric (code : Nat) : Bool :=
  ["nd", "nl", "no"].any (hasCategory · code)

/-- Whether a character is a decimal digit of any script. -/
def isDigit (c : Char) : Bool :=
  if c.toNat < 128 then c.isDigit else inRanges decimalNumber c.toNat

/-- The characters of words: alphabetic ones, marks, digits, connecting punctuation and the two
joiners. -/
def isWord (c : Char) : Bool :=
  if c.toNat < 128 then
    c.isAlphanum || c == '_'
  else
    isAlphabetic c.toNat || isDigit c || ["mn", "mc", "me"].any (hasCategory · c.toNat)
      || inRanges connectorPunctuation c.toNat || c.toNat == 0x200C || c.toNat == 0x200D

/-- The properties that are neither a category nor a script. -/
def hasProperty (name : String) (code : Nat) : Option Bool :=
  match name with
  | "any" => some true
  | "assigned" => some (isAssigned code)
  | "ascii" => some (code < 128)
  | "alphabetic" | "alpha" => some (isAlphabetic code)
  | "lowercase" | "lower" => some (hasCategory "ll" code || inRanges lowercaseExtras code)
  | "uppercase" | "upper" => some (hasCategory "lu" code || inRanges uppercaseExtras code)
  | _ => none

end Unicode

end Bindery
