import Bindery.Binding.Fragment
import Bindery.Text.Scope

/-!
# Calls that define members

The call by which each kind of member is defined, without what ends it in a chain.
-/

set_option autoImplicit false

namespace Bindery

namespace Code

def quoted (text : String) : String :=
  "\"" ++ text ++ "\""

/-- A function with explicit template arguments. -/
def applied (function args : String) : String :=
  function ++ "<" ++ args ++ ">"

/-- An argument with its default, after a comma. -/
def argument (arg : Argument) : String :=
  let head := ", Arg(" ++ quoted arg.name ++ ")"
  match arg.default with
  | some default =>
      head ++ " = " ++ applied "static_cast" default.cppType ++ "(" ++ default.expression ++ ")"
  | none => head

/-- The arguments of a callable, each after a comma. -/
def arguments (args : List Argument) (returnBuffer : Bool) : String :=
  (if returnBuffer then ", Return().setBuffer()" else "") ++ String.join (args.map argument)

/-- The definition of a function: the defining function, the Ruby name, the address and the
arguments. -/
def callable (function : String) (callable : Callable) : String :=
  function ++ "(" ++ quoted callable.name ++ ", " ++ callable.cppName
    ++ arguments callable.args callable.returnBuffer ++ ")"

/-- The definition of a method by a lambda, over several lines. -/
def lambda (function : String) (lambda : Lambda) : String :=
  let params := lambda.params.map fun (type, name) => type ++ " " ++ name
  function ++ "(" ++ quoted lambda.name ++ ", [](" ++ Text.joinArgs params ++ ") -> "
    ++ lambda.returnType ++ "\n\x7b\n  " ++ lambda.body ++ "\n\x7d)"

def attributeCall (function name cppMember : String) (readOnly : Bool) : String :=
  function ++ "(" ++ quoted name ++ ", " ++ cppMember
    ++ (if readOnly then ", Rice::AttrAccess::Read" else "") ++ ")"

end Code

/-- Where members are defined: the class that has them, and whether it depends on the parameters
of a builder. -/
structure MemberScope where
  classType : String
  dependent : Bool
deriving Repr, DecidableEq

namespace MemberScope

/-- A defining function with the signature it is given, if there is one. -/
def defining (scope : MemberScope) (function : String) (signature : Option String) : String :=
  match signature with
  | some signature =>
      (if scope.dependent then "template " else "") ++ Code.applied function signature
  | none => function

/-- The call that defines a member. -/
def link (scope : MemberScope) : Member → String
  | .constructor argTypes args =>
      "define_constructor("
        ++ Code.applied "Constructor" (Text.joinArgs (scope.classType :: argTypes)) ++ "()"
        ++ Code.arguments args false ++ ")"
  | .method callable => Code.callable (scope.defining "define_method" callable.signature) callable
  | .singletonFunction callable =>
      Code.callable (scope.defining "define_singleton_function" callable.signature) callable
  | .attribute name cppMember readOnly => Code.attributeCall "define_attr" name cppMember readOnly
  | .singletonAttribute name cppMember readOnly =>
      Code.attributeCall "define_singleton_attr" name cppMember readOnly
  | .constant name cppValue =>
      "define_constant(" ++ Code.quoted name ++ ", " ++ cppValue ++ ")"
  | .iterator name first last signature =>
      scope.defining "define_iterator" signature ++ "(" ++ first ++ ", " ++ last ++ ", "
        ++ Code.quoted name ++ ")"
  | .lambda lambda => Code.lambda "define_method" lambda

end MemberScope

end Bindery
