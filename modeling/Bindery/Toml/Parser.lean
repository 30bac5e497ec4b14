import Bindery.Toml.Scalar

/-!
# Reading TOML

The text of a document as statements: keys, strings in their four forms, arrays, inline tables and
headers.
-/

set_option autoImplicit false

namespace Bindery

namespace Toml

/-- A step of reading; it fails on text that is not TOML. -/
abbrev Read := StateT (List Char) Option

/-- Takes the given text if it comes next. -/
def eat (text : String) : Read Bool := do
  let rest ← get
  if text.toList.isPrefixOf rest then
    set (rest.drop text.length)
    return true
  else
    return false

def must (text : String) : Read Unit := do
  if ← eat text then return () else failure

def takeWhile (p : Char → Bool) : Read (List Char) := do
  let rest ← get
  set (rest.dropWhile p)
  return rest.takeWhile p

def isSpace (c : Char) : Bool :=
  c == ' ' || c == '\t'

/-- Passes over spaces and tabs. -/
def spaces : Read Unit := do
  let _ ← takeWhile isSpace

/-- Takes the end of a line if it comes next. -/
def newline : Read Bool := do
  if ← eat "\n" then return true else eat "\r\n"

/-- The characters that may stand in comments and strings: all but controls other than tab. -/
def isPrintable (c : Char) : Bool :=
  c == '\t' || (0x20 ≤ c.toNat && c.toNat != 0x7F)

/-- Passes over a comment if one comes next. -/
def comment : Read Unit := do
  if ← eat "#" then
    let _ ← takeWhile isPrintable

/-- Passes over blanks, comments and ends of lines. -/
def blankLines : Nat → Read Unit
  | 0 => return ()
  | fuel + 1 => do
      spaces
      comment
      if ← newline then blankLines fuel

/-- The characters of keys without quotes. -/
def isBare (c : Char) : Bool :=
  c.isAlphanum || c == '_' || c == '-'

/-- The value of a hexadecimal digit. -/
def hexDigit? (c : Char) : Option Nat :=
  if c.isDigit || ('a' ≤ c && c ≤ 'f') || ('A' ≤ c && c ≤ 'F') then some (digitValue c) else none

/-- The character whose code point the next `width` digits write. -/
def codePoint (width : Nat) : Read Char := do
  let rest ← get
  let digits := rest.take width
  if digits.length = width then
    set (rest.drop width)
    let values ← StateT.lift (digits.mapM hexDigit?)
    let code := values.foldl (fun value digit => value * 16 + digit) 0
    if h : code.isValidChar then return Char.ofNatAux code h else failure
  else
    failure

/-- The character that an escape stands for, the backslash taken. -/
def escape : Read Char := do
  match ← get with
  | [] => failure
  | c :: rest =>
      set rest
      match c with
      | 'b' => return '\x08'
      | 't' => return '\t'
      | 'n' => return '\n'
      | 'f' => return '\x0c'
      | 'r' => return '\r'
      | '"' => return '"'
      | '\\' => return '\\'
      | 'u' => codePoint 4
      | 'U' => codePoint 8
      | _ => failure

/-- The rest of a string in double quotes. -/
def basicString (done : List Char) : Nat → Read String
  | 0 => failure
  | fuel + 1 => do
      let plain ← takeWhile fun c => isPrintable c && c != '"' && c != '\\'
      let done := done ++ plain
      if ← eat "\"" then
        return String.ofList done
      else
        must "\\"
        let c ← escape
        basicString (done ++ [c]) fuel

/-- The rest of a string in single quotes. -/
def literalString : Read String := do
  let text ← takeWhile fun c => isPrintable c && c != '\''
  must "'"
  return String.ofList text

/-- The quotes at the end of what has been read, as part of the text or as its end: three close the
string, and up to two more before them belong to it. -/
def quotes (quote : Char) : Read (List Char × Bool) := do
  let run := (← get).takeWhile (· == quote)
  let taken := run.take 5
  set ((← get).drop taken.length)
  if taken.length < 3 then return (taken, false) else return (taken.drop 3, true)

/-- Passes over a backslash at the end of a line with the blanks that follow; fails elsewhere. -/
def lineContinuation : Read Bool := do
  let start ← get
  spaces
  if ← newline then
    set ((← get).dropWhile fun c => isSpace c || c == '\n' || c == '\r')
    return true
  else
    set start
    return false

/-- The rest of a string in three double quotes. -/
def longBasicString (done : List Char) : Nat → Read String
  | 0 => failure
  | fuel + 1 => do
      let plain ← takeWhile fun c => isPrintable c && c != '"' && c != '\\'
      let done := done ++ plain
      if ← newline then
        longBasicString (done ++ ['\n']) fuel
      else if ← eat "\\" then
        if ← lineContinuation then
          longBasicString done fuel
        else
          let c ← escape
          longBasicString (done ++ [c]) fuel
      else
        let (text, closed) ← quotes '"'
        if closed then return String.ofList (done ++ text)
        else if text.isEmpty then failure
        else longBasicString (done ++ text) fuel

/-- The rest of a string in three single quotes. -/
def longLiteralString (done : List Char) : Nat → Read String
  | 0 => failure
  | fuel + 1 => do
      let plain ← takeWhile fun c => isPrintable c && c != '\''
      let done := done ++ plain
      if ← newline then
        longLiteralString (done ++ ['\n']) fuel
      else
        let (text, closed) ← quotes '\''
        if closed then return String.ofList (done ++ text)
        else if text.isEmpty then failure
        else longLiteralString (done ++ text) fuel

/-- The number of steps that suffice for the text to come. -/
def stepsLeft : Read Nat := do
  return (← get).length + 1

/-- A string, if one comes next. -/
def string? : Read (Option String) := do
  let fuel ← stepsLeft
  if ← eat "\"\"\"" then
    let _ ← newline
    return some (← longBasicString [] fuel)
  else if ← eat "'''" then
    let _ ← newline
    return some (← longLiteralString [] fuel)
  else if ← eat "\"" then
    return some (← basicString [] fuel)
  else if ← eat "'" then
    return some (← literalString)
  else
    return none

def keyPart : Read String := do
  let fuel ← stepsLeft
  if ← eat "\"" then
    basicString [] fuel
  else if ← eat "'" then
    literalString
  else
    let name ← takeWhile isBare
    if name.isEmpty then failure else return String.ofList name

/-- The parts of a key with dots between them. -/
def keyParts : Nat → Read (List String)
  | 0 => failure
  | fuel + 1 => do
      spaces
      let part ← keyPart
      spaces
      if ← eat "." then
        return part :: (← keyParts fuel)
      else
        return [part]

/-- The number of parts of a key, and of arrays and inline tables around a value, has to stay below
this. -/
def depthLimit : Nat := 80

/-- A key of one part or several. -/
def key (fuel : Nat) : Read (List String) := do
  let parts ← keyParts fuel
  if parts.length < depthLimit then return parts else failure

/-- The characters of scalars that are no strings. -/
def isToken (c : Char) : Bool :=
  c.isAlphanum || c == '_' || c == '-' || c == '+' || c == '.' || c == ':'

/-- A scalar that is no string; a date may go on with a time after a space. -/
def token : Read Item := do
  let first ← takeWhile isToken
  let rest ← get
  let time := (rest.drop 1).takeWhile isToken
  if rest.head? == some ' ' && afterDate? first == some [] && (afterTime? time).isSome then
    set (rest.drop (time.length + 1))
    StateT.lift (scalar? (first ++ ' ' :: time))
  else
    StateT.lift (scalar? first)

/-- The table of assignments written inline. -/
def inlineTable (pairs : List (List String × Item)) : Option Item := do
  let (_, entries) ← pairs.foldlM
    (fun (table : Kind × Entries) (pair : List String × Item) => do
      let key ← pair.1.getLast?
      Entries.assign pair.1.dropLast key pair.2 table.1 table.2)
    (Kind.header, [])
  some (.table .inline entries)

mutual

/-- A value of any kind that stands in `depth` arrays and inline tables. -/
def value (depth : Nat) : Nat → Read Item
  | 0 => failure
  | fuel + 1 => do
      match ← string? with
      | some text => return .string text
      | none =>
          if ← eat "[" then
            if depth + 1 < depthLimit then
              return .array (← elements (depth + 1) [] fuel)
            else
              failure
          else if ← eat "\x7b" then
            if depth + 1 < depthLimit then
              spaces
              let pairs ← if ← eat "\x7d" then pure [] else assignments (depth + 1) [] fuel
              StateT.lift (inlineTable pairs)
            else
              failure
          else
            token

/-- The rest of an array. -/
def elements (depth : Nat) (done : List Item) : Nat → Read (List Item)
  | 0 => failure
  | fuel + 1 => do
      blankLines fuel
      if ← eat "]" then
        return done
      else
        let item ← value depth fuel
        blankLines fuel
        if ← eat "," then
          elements depth (done ++ [item]) fuel
        else
          must "]"
          return done ++ [item]

/-- The rest of an inline table. -/
def assignments (depth : Nat) (done : List (List String × Item)) : Nat → Read (List (List String × Item))
  | 0 => failure
  | fuel + 1 => do
      let path ← key fuel
      must "="
      spaces
      let item ← value depth fuel
      spaces
      if ← eat "," then
        assignments depth (done ++ [(path, item)]) fuel
      else
        must "\x7d"
        return done ++ [(path, item)]

end

/-- A statement, if the line holds one. -/
def statement : Read (Option Statement) := do
  let fuel := 2 * (← stepsLeft)
  spaces
  match (← get).head? with
  | none => return none
  | some '#' => return none
  | some '\n' => return none
  | some '\r' => return none
  | some '[' =>
      if ← eat "[[" then
        let path ← key fuel
        must "]]"
        return some (.elementHeader path)
      else
        must "["
        let path ← key fuel
        must "]"
        return some (.header path)
  | some _ =>
      let path ← key fuel
      must "="
      spaces
      let item ← value 0 fuel
      let name ← StateT.lift path.getLast?
      return some (.assignment path.dropLast name item)

/-- The statements of the lines to come. -/
def statements : Nat → Read (List Statement)
  | 0 => failure
  | fuel + 1 => do
      let line ← statement
      spaces
      comment
      if (← get).isEmpty then
        return line.toList
      else if ← newline then
        return line.toList ++ (← statements fuel)
      else
        failure

/-- The entries of a document; text that is not TOML has none. -/
def parse? (text : String) : Option Entries := do
  let cs := text.toList
  let cs := if cs.head? == some '\ufeff' then cs.drop 1 else cs
  let (lines, _) ← (statements (cs.length + 1)).run cs
  let document ← lines.foldlM Document.add Document.empty
  some document.entries

end Toml

end Bindery
