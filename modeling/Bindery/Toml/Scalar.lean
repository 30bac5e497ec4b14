import Bindery.Toml.Value

/-!
# TOML scalars

Booleans, integers, floats, dates and times, each read from a token without blanks or brackets.
-/

set_option autoImplicit false

namespace Bindery

namespace Toml

/-- The digits of a number; underscores may stand between digits and nowhere else. -/
def digits? (isDigit : Char → Bool) (token : List Char) : Option (List Char) :=
  let parts := token.splitOn '_'
  if parts.all fun part => !part.isEmpty && part.all isDigit then some parts.flatten else none

/-- The value of a digit in any base up to sixteen. -/
def digitValue (c : Char) : Nat :=
  if c.isDigit then c.toNat - '0'.toNat
  else if c.isUpper then c.toNat - 'A'.toNat + 10
  else c.toNat - 'a'.toNat + 10

def numberOf (base : Nat) (digits : List Char) : Nat :=
  digits.foldl (fun value digit => value * base + digitValue digit) 0

/-- The sign in front of a number and the rest. -/
def splitSign : List Char → Option Bool × List Char
  | '-' :: rest => (some true, rest)
  | '+' :: rest => (some false, rest)
  | token => (none, token)

/-- Decimal digits without a superfluous zero in front. -/
def decimalDigits? (token : List Char) : Option (List Char) := do
  let digits ← digits? Char.isDigit token
  if digits.length = 1 || digits.head? != some '0' then some digits else none

/-- An integer that fits into 64 bits. -/
def inRange? (value : Int) : Option Int :=
  if -9223372036854775808 ≤ value ∧ value ≤ 9223372036854775807 then some value else none

/-- An integer: decimal with a sign or not, or with the mark of another base. -/
def integer? (token : List Char) : Option Int :=
  match token with
  | '0' :: 'x' :: rest => do
      let isHex (c : Char) : Bool :=
        c.isDigit || ('a' ≤ c && c ≤ 'f') || ('A' ≤ c && c ≤ 'F')
      inRange? (numberOf 16 (← digits? isHex rest))
  | '0' :: 'o' :: rest => do
      inRange? (numberOf 8 (← digits? (fun c => '0' ≤ c && c ≤ '7') rest))
  | '0' :: 'b' :: rest => do
      inRange? (numberOf 2 (← digits? (fun c => c = '0' || c = '1') rest))
  | _ => do
      let (negative, rest) := splitSign token
      let value : Int := numberOf 10 (← decimalDigits? rest)
      inRange? (if negative = some true then -value else value)

/-- Whether a token is a float: an integer part, then a fraction or an exponent or both. -/
def isFloat (token : List Char) : Bool :=
  let (_, rest) := splitSign token
  if rest = "inf".toList || rest = "nan".toList then
    true
  else
    let isMark (c : Char) : Bool := c = 'e' || c = 'E'
    let (mantissa, exponent) := rest.span fun c => !isMark c
    let (whole, fraction) := mantissa.span (· != '.')
    let exponentOk :=
      match exponent with
      | [] => true
      | _ :: power => (digits? Char.isDigit (splitSign power).2).isSome
    let fractionOk :=
      match fraction with
      | [] => !exponent.isEmpty
      | _ :: places => (digits? Char.isDigit places).isSome
    (decimalDigits? whole).isSome && fractionOk && exponentOk

/-- Exactly `n` digits as a number, and the rest. -/
def fixedDigits? (n : Nat) (token : List Char) : Option (Nat × List Char) :=
  let digits := token.take n
  if digits.length = n ∧ digits.all Char.isDigit then
    some (numberOf 10 digits, token.drop n)
  else
    none

/-- The text after a given character. -/
def expect? (c : Char) : List Char → Option (List Char)
  | [] => none
  | d :: rest => if c = d then some rest else none

def daysIn (year month : Nat) : Nat :=
  let leap := year % 4 = 0 ∧ (year % 100 ≠ 0 ∨ year % 400 = 0)
  if month = 2 then (if leap then 29 else 28)
  else if [4, 6, 9, 11].contains month then 30
  else 31

def afterDate? (token : List Char) : Option (List Char) := do
  let (year, rest) ← fixedDigits? 4 token
  let (month, rest) ← fixedDigits? 2 (← expect? '-' rest)
  let (day, rest) ← fixedDigits? 2 (← expect? '-' rest)
  if 1 ≤ month ∧ month ≤ 12 ∧ 1 ≤ day ∧ day ≤ daysIn year month then some rest else none

/-- The text after a time of day. -/
def afterTime? (token : List Char) : Option (List Char) := do
  let (hour, rest) ← fixedDigits? 2 token
  let (minute, rest) ← fixedDigits? 2 (← expect? ':' rest)
  let (second, rest) ← fixedDigits? 2 (← expect? ':' rest)
  if hour ≤ 23 ∧ minute ≤ 59 ∧ second ≤ 60 then
    match rest with
    | '.' :: places =>
        if (places.takeWhile Char.isDigit).isEmpty then none
        else some (places.dropWhile Char.isDigit)
    | _ => some rest
  else
    none

/-- Whether a text is an offset from universal time, or empty. -/
def isOffset : List Char → Bool
  | [] => true
  | ['Z'] => true
  | ['z'] => true
  | c :: rest =>
      (c == '+' || c == '-') &&
        match (do
          let (hour, rest) ← fixedDigits? 2 rest
          let (minute, rest) ← fixedDigits? 2 (← expect? ':' rest)
          some (hour ≤ 23 && minute ≤ 59 && rest.isEmpty)) with
        | some ok => ok
        | none => false

/-- Whether a token is a date, a time, or both. -/
def isDatetime (token : List Char) : Bool :=
  match afterDate? token with
  | some [] => true
  | some (c :: rest) =>
      (c == 'T' || c == 't' || c == ' ') && (afterTime? rest).any isOffset
  | none => afterTime? token == some []

def scalar? (token : List Char) : Option Item :=
  if token = "true".toList then some (.boolean true)
  else if token = "false".toList then some (.boolean false)
  else if isDatetime token then some (.datetime (String.ofList token))
  else
    match integer? token with
    | some value => some (.integer value)
    | none => if isFloat token then some (.float (String.ofList token)) else none

end Toml

end Bindery
