import Bindery.Regex.Syntax
import Bindery.Text.Letter

/-!
# Reading regular expressions

The written form of regular expressions: the usual operators, greedy and lazy repetition, named
groups, inline flags, character classes with set operations, Unicode properties.  Look-around and
back-references are refused.
-/

set_option autoImplicit false

namespace Bindery

namespace Regex

/-- The flags in force at a place of an expression. -/
structure Flags where
  caseless : Bool
  multiLine : Bool
  dotAll : Bool
  swapGreed : Bool
  verbose : Bool
  crlf : Bool
  unicode : Bool
deriving Repr, DecidableEq

/-- At the start Unicode is on and every other flag is off. -/
def Flags.initial : Flags :=
  ⟨false, false, false, false, false, false, true⟩

def Flags.set? (flags : Flags) (letter : Char) (value : Bool) : Option Flags :=
  match letter with
  | 'i' => some { flags with caseless := value }
  | 'm' => some { flags with multiLine := value }
  | 's' => some { flags with dotAll := value }
  | 'U' => some { flags with swapGreed := value }
  | 'x' => some { flags with verbose := value }
  | 'R' => some { flags with crlf := value }
  | 'u' => some { flags with unicode := value }
  | _ => none

/-- What is known while reading: the text to come, the flags in force, the number of groups opened
and the names given to groups. -/
structure Reader where
  rest : List Char
  flags : Flags
  groups : Nat
  names : List (List Char)
deriving Repr, DecidableEq

/-- A step of reading; it fails on an invalid expression. -/
abbrev Read := StateT Reader Option

namespace Read

/-- The text to come. -/
def rest : Read (List Char) := do
  return (← get).rest

/-- Goes on at `cs`. -/
def moveTo (cs : List Char) : Read Unit :=
  modify fun reader => { reader with rest := cs }

def flags : Read Flags := do
  return (← get).flags

/-- Changes the flags in force. -/
def setFlags (flags : Flags) : Read Unit :=
  modify fun reader => { reader with flags }

/-- Takes the given text if it comes next. -/
def eat (text : String) : Read Bool := do
  match Chars.dropPrefix? text.toList (← rest) with
  | some later =>
      moveTo later
      return true
  | none => return false

def take : Read Char := do
  match ← rest with
  | [] => failure
  | c :: later =>
      moveTo later
      return c

/-- Fails unless the condition holds. -/
def demand (condition : Bool) : Read Unit :=
  if condition then pure () else failure

end Read

/-- The text after white space and comments. -/
def afterSpace (inComment : Bool) : List Char → List Char
  | [] => []
  | c :: rest =>
      if inComment then afterSpace (c != '\n') rest
      else if Chars.isBlank c then afterSpace false rest
      else if c = '#' then afterSpace true rest
      else c :: rest

/-- Passes over white space and comments where the flags allow them. -/
def skipSpace : Read Unit := do
  if (← Read.flags).verbose then
    Read.moveTo (afterSpace false (← Read.rest))

/-- Characters that a backslash always makes literal. -/
def metaCharacters : List Char :=
  ['\\', '.', '+', '*', '?', '(', ')', '|', '[', ']', '\x7b', '\x7d', '^', '$', '#', '&', '-', '~']

/-- Whether a backslash makes the character literal: an ASCII character that is no letter, digit
or angle bracket. -/
def isEscapable (c : Char) : Bool :=
  metaCharacters.contains c
    || (c.toNat < 128 && !c.isAlphanum && c != '<' && c != '>')

/-- The value of a hexadecimal digit. -/
def hexDigit? (c : Char) : Option Nat :=
  if c.isDigit then some (c.toNat - '0'.toNat)
  else if 'a' ≤ c ∧ c ≤ 'f' then some (c.toNat - 'a'.toNat + 10)
  else if 'A' ≤ c ∧ c ≤ 'F' then some (c.toNat - 'A'.toNat + 10)
  else none

/-- The number that hexadecimal digits write; there must be one. -/
def hexNumber? (digits : List Char) : Option Nat :=
  if digits.isEmpty then none
  else (digits.mapM hexDigit?).map (·.foldl (fun value digit => value * 16 + digit) 0)

def charOfCode? (code : Nat) : Option Char :=
  if h : code.isValidChar then some (Char.ofNatAux code h) else none

/-- What an escape or a plain character stands for. -/
inductive Item where
  | literal (c : Char) (isByte : Bool)
  | set (set : CharClass) (negated : Bool) (isProperty : Bool)
  | assertion (assertion : Assertion)
deriving Repr, DecidableEq

/-- The code point after `\x`, `\u` or `\U`: in braces, or `width` digits. -/
def readHex (width : Nat) : Read Item := do
  if ← Read.eat "\x7b" then
    let digits := (← Read.rest).takeWhile (· != '\x7d')
    Read.moveTo ((← Read.rest).drop digits.length)
    Read.demand (← Read.eat "\x7d")
    let c ← StateT.lift ((hexNumber? digits).bind charOfCode?)
    return .literal c false
  else
    let digits := (← Read.rest).take width
    Read.demand (digits.length == width)
    Read.moveTo ((← Read.rest).drop width)
    let c ← StateT.lift ((hexNumber? digits).bind charOfCode?)
    return .literal c (width == 2)

/-- A property name without case, spaces, hyphens, underscores and a leading `is`. -/
def normalName (name : List Char) : String :=
  let plain := (name.filter fun c => c != ' ' && c != '_' && c != '-').map Chars.lower
  String.ofList ((Chars.dropPrefix? "is".toList plain).getD plain)

/-- The set of the general category of a normalised name. -/
def categoryClass? (name : String) : Option CharClass :=
  if name == "any" || name == "assigned" || name == "ascii" then
    some (.property name)
  else
    match (Unicode.categories.find? fun (short, long, _) => short == name || long == name) with
    | some (short, _, _) => some (.category [short])
    | none =>
        match Unicode.categoryGroups.find? fun (short, long, _) => short == name || long == name with
        | some (_, _, members) => some (.category members)
        | none =>
            if name == "cn" || name == "unassigned" then
              some (.compl (.property "assigned"))
            else if name == "c" || name == "other" then
              some (.union (.category ["cc", "cf", "cs", "co"]) (.compl (.property "assigned")))
            else
              (Unicode.categoryAliases.lookup name).map .category

/-- The set of the script of a normalised name. -/
def scriptClass? (name : String) : Option CharClass :=
  (Unicode.scripts.lookup name).map fun _ => .script name

/-- The set of the further property of a normalised name. -/
def propertyClass? (name : String) : Option CharClass :=
  if name == "whitespace" || name == "wspace" || name == "space" then some .blank
  else (Unicode.hasProperty name 0).map fun _ => .property name

/-- The set that the text between the braces of `\p` names. -/
def propertyQuery? (query : List Char) : Option (CharClass × Bool) :=
  let parts (sep : Char → Bool) : Option (String × String) :=
    match query.span (fun c => !sep c) with
    | (_, []) => none
    | (key, _ :: value) => some (normalName key, normalName value)
  let lookup : String × String → Option CharClass := fun (key, value) =>
    if key == "gc" || key == "generalcategory" then categoryClass? value
    else if key == "sc" || key == "script" || key == "scx" || key == "scriptextensions" then
      scriptClass? value
    else none
  match parts (fun c => c == ':' || c == '=') with
  | some (key, value) =>
      if (query.takeWhile (· != '=')).getLast? == some '!' then
        (lookup (normalName (query.takeWhile (· != '!')), value)).map (·, true)
      else
        (lookup (key, value)).map (·, false)
  | none =>
      let name := normalName query
      (((propertyClass? name).or (categoryClass? name)).or (scriptClass? name)).map (·, false)

/-- The set after `\p` or `\P`. -/
def readProperty (negated : Bool) : Read Item := do
  let c ← Read.take
  if c = '\x7b' then
    let query := (← Read.rest).takeWhile (· != '\x7d')
    Read.moveTo ((← Read.rest).drop query.length)
    Read.demand (← Read.eat "\x7d")
    let (set, inverse) ← StateT.lift (propertyQuery? query)
    return .set set (negated != inverse) true
  else
    Read.demand (c != '\\')
    let set ← StateT.lift (categoryClass? (normalName [c]))
    return .set set negated true

/-- The edge that the text between the braces of `\b` names. -/
def wordEdge? (name : String) : Option WordEdge :=
  match name with
  | "start" => some .start
  | "end" => some .stop
  | "start-half" => some .startHalf
  | "end-half" => some .stopHalf
  | _ => none

/-- The edge after `\b`, with or without braces. -/
def readWordEdge : Read WordEdge := do
  match ← Read.rest with
  | '\x7b' :: inside =>
      let isNameChar (c : Char) : Bool := c.isAlpha || c == '-'
      let name := inside.takeWhile isNameChar
      if name.isEmpty then
        Read.demand !inside.isEmpty
        return .boundary
      else
        Read.moveTo (inside.drop name.length)
        Read.demand (← Read.eat "\x7d")
        StateT.lift (wordEdge? (String.ofList name))
  | _ => return .boundary

/-- The set of digits, white space or word characters under the flags. -/
def perlClass (unicode : Bool) (letter : Char) : CharClass :=
  match letter, unicode with
  | 'd', true => .digit
  | 'd', false => .range '0' '9'
  | 's', true => .blank
  | 's', false => .ofRanges [('\t', '\r'), (' ', ' ')]
  | _, true => .word
  | _, false => .ofRanges [('0', '9'), ('A', 'Z'), ('_', '_'), ('a', 'z')]

/-- What a backslash and the characters after it stand for. -/
def readEscape : Read Item := do
  let flags ← Read.flags
  let c ← Read.take
  let word (edge : WordEdge) : Item := .assertion (.word edge (!flags.unicode))
  match c with
  | 'x' => do
      skipSpace
      readHex 2
  | 'u' => do
      skipSpace
      readHex 4
  | 'U' => do
      skipSpace
      readHex 8
  | 'p' => readProperty false
  | 'P' => readProperty true
  | 'd' | 's' | 'w' => return .set (perlClass flags.unicode c) false false
  | 'D' => return .set (perlClass flags.unicode 'd') true false
  | 'S' => return .set (perlClass flags.unicode 's') true false
  | 'W' => return .set (perlClass flags.unicode 'w') true false
  | 'a' => return .literal '\x07' false
  | 'f' => return .literal '\x0c' false
  | 't' => return .literal '\t' false
  | 'n' => return .literal '\n' false
  | 'r' => return .literal '\r' false
  | 'v' => return .literal '\x0b' false
  | 'A' => return .assertion .textStart
  | 'z' => return .assertion .textEnd
  | 'b' => return word (← readWordEdge)
  | 'B' => return word .inside
  | '<' => return word .start
  | '>' => return word .stop
  | _ =>
      Read.demand (isEscapable c)
      return .literal c false

/-- The set folded if case does not count. -/
def folded (flags : Flags) (set : CharClass) : CharClass :=
  if flags.caseless then .fold (!flags.unicode) set else set

def complIf (negated : Bool) (set : CharClass) : CharClass :=
  if negated then .compl set else set

/-- The set of an item; outside Unicode it must not reach beyond ASCII. -/
def itemClass? (flags : Flags) : Item → Option CharClass
  | .literal c _ => if flags.unicode || c.toNat < 128 then some (.single c) else none
  | .set set negated isProperty =>
      if flags.unicode then
        some (complIf negated (if isProperty then folded flags set else set))
      else if negated || isProperty then
        none
      else
        some set
  | .assertion _ => none

/-- The expression of an item that stands outside brackets. -/
def itemNode? (flags : Flags) : Item → Option Node
  | .literal c isByte =>
      if flags.unicode || c.toNat < 128 || !isByte then
        some (.char (folded flags (.single c)))
      else
        none
  | .assertion assertion => some (.look assertion)
  | item => (itemClass? flags item).map .char

/-- The named classes that may stand in brackets. -/
def asciiClasses : List (String × List (Char × Char)) :=
  [("alnum", [('0', '9'), ('A', 'Z'), ('a', 'z')]), ("alpha", [('A', 'Z'), ('a', 'z')]),
   ("ascii", [('\x00', '\x7f')]), ("blank", [('\t', '\t'), (' ', ' ')]),
   ("cntrl", [('\x00', '\x1f'), ('\x7f', '\x7f')]), ("digit", [('0', '9')]),
   ("graph", [('!', '~')]), ("lower", [('a', 'z')]), ("print", [(' ', '~')]),
   ("punct", [('!', '/'), (':', '@'), ('[', '\x60'), ('\x7b', '~')]),
   ("space", [('\t', '\r'), (' ', ' ')]), ("upper", [('A', 'Z')]),
   ("word", [('0', '9'), ('A', 'Z'), ('_', '_'), ('a', 'z')]),
   ("xdigit", [('0', '9'), ('A', 'F'), ('a', 'f')])]

/-- The named class and the text behind it, if the text behind a `[` starts one. -/
def asciiClass? (cs : List Char) : Option (CharClass × List Char) := do
  let inside ← Chars.dropPrefix? [':'] cs
  let negated := inside.head? == some '^'
  let inside := if negated then inside.drop 1 else inside
  let name := inside.takeWhile (· != ':')
  let rest ← Chars.dropPrefix? [':', ']'] (inside.drop name.length)
  let ranges ← asciiClasses.lookup (String.ofList name)
  return (complIf negated (.ofRanges ranges), rest)

/-- One character or escape inside brackets. -/
def readClassItem : Read Item := do
  let c ← Read.take
  if c = '\\' then readEscape else return .literal c false

/-- One character, escape or range inside brackets. -/
def readClassRange : Read CharClass := do
  let flags ← Read.flags
  let first ← readClassItem
  skipSpace
  let rest ← Read.rest
  Read.demand !rest.isEmpty
  let later := if flags.verbose then afterSpace false (rest.drop 1) else rest.drop 1
  if rest.head? != some '-' || later.head? == some ']' || later.head? == some '-' then
    StateT.lift (itemClass? flags first)
  else
    Read.moveTo later
    let last ← readClassItem
    match first, last with
    | .literal a _, .literal b _ =>
        Read.demand (a ≤ b && (flags.unicode || b.toNat < 128))
        return .range a b
    | _, _ => failure

/-- The set operations that may stand in brackets. -/
def classOperators : List (String × (CharClass → CharClass → CharClass)) :=
  [("&&", .inter), ("--", .diff), ("~~", .symmDiff)]

/-- Takes a set operator if one comes next. -/
def readClassOperator : Read (Option (CharClass → CharClass → CharClass)) := do
  if ← Read.eat "&&" then return some .inter
  else if ← Read.eat "--" then return some .diff
  else if ← Read.eat "~~" then return some .symmDiff
  else return none

/-- The characters right after an opening bracket that are literal there: hyphens, or a closing
bracket in the first place. -/
def readClassLead : Read CharClass := do
  let rest ← Read.rest
  let hyphens := rest.takeWhile (· == '-')
  let after := rest.drop hyphens.length
  let closing := hyphens.isEmpty && after.head? == some ']'
  Read.moveTo (if closing then after.drop 1 else after)
  Read.demand !(← Read.rest).isEmpty
  if closing then return .single ']'
  else if hyphens.isEmpty then return .none
  else return .single '-'

/-- The inside of brackets up to the closing one.  `pending` combines what stands before the last
operator with what stands behind it. -/
def readClassBody (pending : CharClass → CharClass) (items : CharClass) : Nat → Read CharClass
  | 0 => failure
  | fuel + 1 => do
      let flags ← Read.flags
      skipSpace
      if ← Read.eat "]" then
        return pending items
      else if let some combine ← readClassOperator then
        let left := folded flags (pending items)
        readClassBody (fun right => combine left (folded flags right)) .none fuel
      else if ← Read.eat "[" then
        match asciiClass? (← Read.rest) with
        | some (set, rest) =>
            Read.moveTo rest
            readClassBody pending (.union items set) fuel
        | none =>
            skipSpace
            let negated ← Read.eat "^"
            skipSpace
            let lead ← readClassLead
            let inner ← readClassBody id lead fuel
            readClassBody pending (.union items (complIf negated (folded flags inner))) fuel
      else
        let set ← readClassRange
        readClassBody pending (.union items set) fuel

/-- The set in brackets, the opening one taken. -/
def readClass : Read Node := do
  let flags ← Read.flags
  skipSpace
  let negated ← Read.eat "^"
  skipSpace
  let lead ← readClassLead
  let inner ← readClassBody id lead ((← Read.rest).length + 1)
  Read.demand (flags.unicode || !negated)
  return .char (complIf negated (folded flags inner))

/-- The flags between `(?` and `:` or `)`, read onto `flags`.  Tells whether there was any and what
follows. -/
def flagItems (flags : Flags) (seen : List Char) (negated dangling : Bool) :
    List Char → Option (Flags × Bool × List Char)
  | [] => none
  | c :: rest =>
      if c = ':' ∨ c = ')' then
        if dangling then none else some (flags, !seen.isEmpty, c :: rest)
      else if c = '-' then
        if negated then none else flagItems flags seen true true rest
      else if seen.contains c then
        none
      else
        (flags.set? c (!negated)).bind fun flags => flagItems flags (c :: seen) negated false rest

/-- Whether a character may stand in the name of a group. -/
def isNameChar (first : Bool) (c : Char) : Bool :=
  c == '_' || Unicode.isAlphabetic c.toNat
    || (!first && (c == '.' || c == '[' || c == ']' || Unicode.isNumeric c.toNat))

/-- The name of a group up to the closing bracket; it must be new. -/
def readGroupName : Read Unit := do
  let name := (← Read.rest).takeWhile (· != '>')
  Read.moveTo ((← Read.rest).drop name.length)
  Read.demand (← Read.eat ">")
  Read.demand (name.head?.any (isNameChar true) && name.all (isNameChar false))
  Read.demand !(← get).names.contains name
  modify fun reader => { reader with names := name :: reader.names }

/-- What an opening parenthesis opens: a numbered group, a plain group, or no group but a change of
flags. -/
inductive Opening where
  | capture (index : Nat)
  | plain
  | flags
deriving Repr, DecidableEq

/-- Opens a numbered group. -/
def openCapture : Read Opening := do
  modify fun reader => { reader with groups := reader.groups + 1 }
  return .capture (← get).groups

/-- What stands behind an opening parenthesis.  The flags of the group are in force afterwards. -/
def readOpening : Read Opening := do
  skipSpace
  let rest ← Read.rest
  let isLookaround :=
    ["?=", "?!", "?<=", "?<!"].any fun head => head.toList.isPrefixOf rest
  Read.demand !isLookaround
  if ← (do if ← Read.eat "?P<" then return true else Read.eat "?<") then
    let opening ← openCapture
    readGroupName
    return opening
  else if ← Read.eat "?" then
    let (flags, any, later) ←
      StateT.lift (flagItems (← Read.flags) [] false false (← Read.rest))
    Read.setFlags flags
    Read.moveTo (later.drop 1)
    if later.head? == some ')' then
      Read.demand any
      return .flags
    else
      return .plain
  else
    openCapture

/-- The largest number of repetitions that can be asked for. -/
def maxCount : Nat := 4294967295

/-- A decimal number with white space around it. -/
def readDecimal? : Read (Option Nat) := do
  let rest := (← Read.rest).dropWhile Chars.isBlank
  let digits := rest.takeWhile Char.isDigit
  Read.moveTo ((rest.drop digits.length).dropWhile Chars.isBlank)
  if digits.isEmpty then
    return none
  else
    let value := digits.foldl (fun value digit => value * 10 + (digit.toNat - '0'.toNat)) 0
    Read.demand (value ≤ maxCount)
    return some value

/-- The bounds of a counted repetition, the opening brace taken. -/
def readBounds : Read (Nat × Option Nat) := do
  skipSpace
  let min ← readDecimal?
  let low ← StateT.lift min
  let high ←
    if ← Read.eat "," then
      skipSpace
      if (← Read.rest).head? == some '\x7d' then
        pure none
      else
        let max ← readDecimal?
        let max ← StateT.lift max
        pure (some max)
    else
      pure (some low)
  Read.demand (← Read.eat "\x7d")
  Read.demand (high.all (low ≤ ·))
  return (low, high)

/-- The bounds of the repetition that an operator asks for, the operator taken. -/
def readRepetition : Read (Option (Nat × Option Nat)) := do
  if ← Read.eat "?" then return some (0, some 1)
  else if ← Read.eat "*" then return some (0, none)
  else if ← Read.eat "+" then return some (1, none)
  else if ← Read.eat "\x7b" then return some (← readBounds)
  else return none

/-- One character, class, escape or assertion. -/
def readPrimitive : Read Node := do
  let flags ← Read.flags
  let c ← Read.take
  match c with
  | '\\' => do
      let item ← readEscape
      StateT.lift (itemNode? flags item)
  | '.' =>
      Read.demand flags.unicode
      let excluded : CharClass :=
        if flags.dotAll then .none
        else if flags.crlf then .union (.single '\r') (.single '\n')
        else .single '\n'
      return .char (.compl excluded)
  | '^' => return .look (if flags.multiLine then .lineStart flags.crlf else .textStart)
  | '$' => return .look (if flags.multiLine then .lineEnd flags.crlf else .textEnd)
  | '[' => readClass
  | _ => return .char (folded flags (.single c))

/-- Alternatives up to a closing parenthesis or the end.  `alts` are those before the last bar;
`items` are the parts behind it, the last one first, and `none` among them is a change of flags. -/
def readAlts (alts : List Node) (items : List (Option Node)) : Nat → Read Node
  | 0 => failure
  | fuel + 1 => do
      skipSpace
      let finish := alts ++ [Node.ofSeq (items.reverse.filterMap id)]
      match (← Read.rest).head? with
      | none => return Node.ofAlts finish
      | some ')' => return Node.ofAlts finish
      | some '|' =>
          let _ ← Read.take
          readAlts finish [] fuel
      | some '(' =>
          let _ ← Read.take
          let outer ← Read.flags
          match ← readOpening with
          | .flags => readAlts alts (none :: items) fuel
          | opening =>
              let inner ← readAlts [] [] fuel
              Read.demand (← Read.eat ")")
              Read.setFlags outer
              let node :=
                match opening with
                | .capture index => Node.capture index inner
                | _ => inner
              readAlts alts (some node :: items) fuel
      | some _ =>
          match ← readRepetition with
          | some (min, max) =>
              skipSpace
              let lazy ← Read.eat "?"
              match items with
              | some node :: before =>
                  let greedy := lazy == (← Read.flags).swapGreed
                  readAlts alts (some (.repeat node min max greedy) :: before) fuel
              | _ => failure
          | none =>
              let node ← readPrimitive
              readAlts alts (some node :: items) fuel

end Regex

end Bindery
