import Bindery.Binding.Fragment
import Bindery.Name.Method
import Bindery.Spelling.Speller

/-!
# Free operators

An operator outside all classes becomes a method of the class that it is about.  Operators are
collected while a unit is traversed and attached at its end.
-/

set_option autoImplicit false

namespace Bindery

/-- The symbol in the name of an operator; the names of conversions have none. -/
def operatorSymbol? (name : String) : Option String := do
  let symbol := Text.trim (← Text.dropPrefix? "operator" name)
  let isSymbolic (c : Char) : Bool := !Chars.isIdentChar c && !Chars.isBlank c
  if !symbol.isEmpty && symbol.toList.all isSymbolic then some symbol else none

/-- A free operator as a method of the class spelled `target`. -/
structure FreeOperator where
  target : String
  lambda : Lambda
deriving Repr, DecidableEq

namespace Speller

/-- Whether values of a type belong to a class outside the standard library. -/
def isUserClass (speller : Speller) (type : TypeId) : Bool :=
  let tree := speller.tree
  (tree.typeDeclaration (tree.nonReference type)).any fun id =>
    (tree.decl id).kind.isRecord && !tree.isStd id

def isOutputStream (spelling : String) : Bool :=
  let bare := Text.dropEndCopies '&' (Text.dropCopies "const " spelling)
  bare == "std::ostream" || bare == "std::basic_ostream<char>"

/-- The method that prints its object. -/
def printing (speller : Speller) (type : TypeId) : FreeOperator :=
  ⟨speller.spellValue type,
    ⟨"to_s", [(speller.spell type, "self")], "std::string",
      "std::ostringstream stream; stream << self; return stream.str();"⟩⟩

/-- The method for an operator with one operand or two, the first of them the object. -/
def operatorLambda? (speller : Speller) (symbol name returnType : String) :
    List TypeId → Option Lambda
  | [receiver] =>
      some ⟨name, [(speller.spell receiver, "self")], returnType,
        "return " ++ symbol ++ "self;"⟩
  | [receiver, other] =>
      some ⟨name, [(speller.spell receiver, "self"), (speller.spell other, "other")], returnType,
        "return self " ++ symbol ++ " other;"⟩
  | _ => none

/-- The free operator that a function is, if it is about a class. -/
def freeOperator? (speller : Speller) (function : DeclId) : Option FreeOperator := do
  let tree := speller.tree
  let decl := tree.decl function
  let symbol ← operatorSymbol? decl.spelling
  let types ← (tree.parameters function).mapM fun param => (tree.decl param).type
  match types with
  | [] => none
  | first :: others =>
      if symbol = "<<" ∧ others.length = 1 ∧ isOutputStream (speller.spell first) then
        let printed ← others.head?
        if speller.isUserClass printed then some (speller.printing printed) else none
      else if speller.isUserClass first then
        let name ← Name.operator? symbol types.length
        let lambda ← speller.operatorLambda? symbol name (speller.resultType function) types
        some ⟨speller.spellValue first, lambda⟩
      else
        none

end Speller

/-- Operators waiting for their classes, in the order in which the classes were first met. -/
structure OperatorQueue where
  pending : List (String × List Lambda)
deriving Repr, DecidableEq

namespace OperatorQueue

def empty : OperatorQueue :=
  ⟨[]⟩

def isEmpty (queue : OperatorQueue) : Bool :=
  queue.pending.isEmpty

/-- Adds an operator behind those of its class. -/
def push (queue : OperatorQueue) (operator : FreeOperator) : OperatorQueue :=
  if (queue.pending.lookup operator.target).isSome then
    ⟨queue.pending.map fun entry =>
      if entry.1 = operator.target then (entry.1, entry.2 ++ [operator.lambda]) else entry⟩
  else
    ⟨queue.pending ++ [(operator.target, [operator.lambda])]⟩

/-- One group for each class; `identifier` tells the identifier of a class that has one. -/
def groups (queue : OperatorQueue) (identifier : String → Option String) : List OperatorGroup :=
  queue.pending.map fun (cppType, operators) => ⟨identifier cppType, cppType, operators⟩

end OperatorQueue

end Bindery
