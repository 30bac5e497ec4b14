import Bindery.Name.Case
import Bindery.Text.Scope

/-!
# Names of methods

Ruby names of methods, operators and conversions by convention.
-/

set_option autoImplicit false

namespace Bindery

namespace Name

/-- The operators that keep their C++ symbol in Ruby. -/
def sharedOperators : List String :=
  ["+", "-", "*", "/", "%", "==", "!=", "<", ">", "<=", ">=", "<<", ">>", "&", "|", "^", "!", "~",
   "[]"]

/-- The operators that become methods with a name of their own, whatever their operands. -/
def namedOperators : List (String × String) :=
  [("()", "call"), ("=", "assign"), ("+=", "assign_plus"), ("-=", "assign_minus"),
   ("*=", "assign_multiply"), ("/=", "assign_divide"), ("%=", "assign_modulus"),
   ("&=", "assign_and"), ("|=", "assign_or"), ("^=", "assign_xor"),
   ("<<=", "assign_left_shift"), (">>=", "assign_right_shift"), ("->", "arrow"), ("&&", "and"),
   ("||", "or")]

/-- The operators whose name with one operand differs from the general rule. -/
def unaryOperators : List (String × Option String) :=
  [("+", some "+@"), ("-", some "-@"), ("*", some "dereference"), ("&", none),
   ("++", some "increment"), ("--", some "decrement")]

/-- The Ruby method for an operator, or `none` if Ruby has no counterpart.  The operands include
the object itself. -/
def operator? (symbol : String) (operands : Nat) : Option String :=
  match if operands = 1 then unaryOperators.lookup symbol else none with
  | some name => name
  | none =>
      (namedOperators.lookup symbol).or
        (if sharedOperators.contains symbol then some symbol else none)

/-- The types that convert to a Ruby integer. -/
def integerTypes : List String :=
  ["int", "unsigned int", "long", "unsigned long", "long long", "unsigned long long", "short",
   "unsigned short", "size_t", "std::size_t", "int64_t", "uint64_t", "int32_t", "uint32_t"]

/-- The types that convert to a Ruby float. -/
def floatTypes : List String :=
  ["float", "double", "long double"]

/-- The types that convert to a Ruby string. -/
def stringTypes : List String :=
  ["std::string", "const char *", "char *", "const char*", "char*"]

/-- The Ruby name of a conversion to the type `target`. -/
def conversion (target : String) : String :=
  let bare :=
    Text.trim (Text.dropEndCopies '&' (Text.dropCopies "const " (Text.trim target)))
  if integerTypes.contains bare then "to_i"
  else if floatTypes.contains bare then "to_f"
  else if bare = "bool" then "to_bool"
  else if stringTypes.contains bare then "to_s"
  else if Text.endsWith "*" bare then "to_ptr"
  else "to_" ++ snakeCase (Text.simpleName bare)

/-- How a method looks from outside. -/
structure MethodShape where
  name : String
  params : Nat
  returnsBool : Bool
  returnsVoid : Bool
deriving Repr, DecidableEq

/-- The text after `head`, if an upper-case letter follows there. -/
def upperSuffix? (head name : String) : Option String :=
  (Text.dropPrefix? head name).filter fun rest => rest.toList.head?.any Char.isUpper

/-- The text after `is_` or after `is` and before an upper-case letter. -/
def predicateStem? (name : String) : Option String :=
  ((Text.dropPrefix? "is_" name).filter fun rest => !rest.isEmpty).or (upperSuffix? "is" name)

/-- The conventional Ruby name of a method: predicates end in `?`, getters lose `get`, setters end
in `=`. -/
def method (shape : MethodShape) : String :=
  let predicate :=
    if shape.params = 0 && shape.returnsBool then predicateStem? shape.name else none
  let getter :=
    if shape.params = 0 && !shape.returnsVoid then upperSuffix? "get" shape.name else none
  let setter := if shape.params = 1 then upperSuffix? "set" shape.name else none
  match predicate, getter, setter with
  | some rest, _, _ => snakeCase rest ++ "?"
  | none, some rest, _ => snakeCase rest
  | none, none, some rest => snakeCase rest ++ "="
  | none, none, none => snakeCase shape.name

end Name

end Bindery
