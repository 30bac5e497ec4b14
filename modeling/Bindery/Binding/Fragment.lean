/-!
# Bindings

What is generated for a source unit, before any layout: the fragments in their order, the
builders of class templates, the operators attached to classes, and the traits of iterators.
-/

set_option autoImplicit false

namespace Bindery

/-- What a fragment is attached to: nothing, a module or a class, by identifier. -/
inductive Parent where
  | global
  | module_ (identifier : String)
  | class_ (identifier : String)
deriving Repr, DecidableEq

def Parent.identifier? : Parent → Option String
  | global => none
  | module_ identifier => some identifier
  | class_ identifier => some identifier

/-- The default of an argument, with the type that it is cast to. -/
structure DefaultArgument where
  cppType : String
  expression : String
deriving Repr, DecidableEq

/-- An argument of a callable. -/
structure Argument where
  name : String
  default : Option DefaultArgument
deriving Repr, DecidableEq

/-- A function, method or static method: its Ruby name, the C++ name whose address is taken, the
signature that tells overloads apart, and whether it returns a buffer of primitives. -/
structure Callable where
  name : String
  cppName : String
  signature : Option String
  args : List Argument
  returnBuffer : Bool
deriving Repr, DecidableEq

/-- A lambda bound as a method; its parameters are types and names. -/
structure Lambda where
  name : String
  params : List (String × String)
  returnType : String
  body : String
deriving Repr, DecidableEq

/-- A second name for a method. -/
structure Alias where
  newName : String
  oldName : String
deriving Repr, DecidableEq

/-- A member of a class or builder. -/
inductive Member where
  | constructor (argTypes : List String) (args : List Argument)
  | method (callable : Callable)
  | singletonFunction (callable : Callable)
  | attribute (name cppMember : String) (readOnly : Bool)
  | singletonAttribute (name cppMember : String) (readOnly : Bool)
  | constant (name cppValue : String)
  | iterator (name first last : String) (signature : Option String)
  | lambda (lambda : Lambda)
deriving Repr, DecidableEq

/-- A nested class that is declared but not defined. -/
structure OpaqueClass where
  identifier : String
  name : String
  cppType : String
deriving Repr, DecidableEq

/-- A class. -/
structure ClassBinding where
  identifier : String
  name : String
  cppType : String
  base : Option String
  parent : Parent
  opaqueClasses : List OpaqueClass
  members : List Member
  aliases : List Alias
deriving Repr, DecidableEq

/-- The use of a builder for an instantiation. -/
structure BuilderCall where
  name : String
  templateArgs : List String
deriving Repr, DecidableEq

/-- A piece of a unit's bindings. -/
inductive Fragment where
  | module_ (identifier name : String) (parent : Parent)
  | class_ (binding : ClassBinding)
  | enum (identifier name cppType : String) (parent : Parent) (values : List (String × String))
  | instantiation (identifier name cppType : String) (base : Option String) (parent : Parent)
      (builder : Option BuilderCall)
  | function (parent : Parent) (callable : Callable)
  | constant (parent : Parent) (name cppValue : String)
  | variable_ (parent : Parent) (name cppName : String) (readOnly : Bool)
deriving Repr, DecidableEq

namespace Fragment

def identifier? : Fragment → Option String
  | module_ identifier _ _ => some identifier
  | class_ binding => some binding.identifier
  | enum identifier _ _ _ _ => some identifier
  | instantiation identifier _ _ _ _ _ => some identifier
  | function _ _ => none
  | constant _ _ _ => none
  | variable_ _ _ _ _ => none

def parent : Fragment → Parent
  | module_ _ _ parent => parent
  | class_ binding => binding.parent
  | enum _ _ _ parent _ => parent
  | instantiation _ _ _ _ parent _ => parent
  | function parent _ => parent
  | constant parent _ _ => parent
  | variable_ parent _ _ _ => parent

/-- The C++ types that a fragment binds, each with its identifier. -/
def boundTypes : Fragment → List (String × String)
  | class_ binding =>
      (binding.cppType, binding.identifier)
        :: binding.opaqueClasses.map fun inner => (inner.cppType, inner.identifier)
  | enum identifier _ cppType _ _ => [(cppType, identifier)]
  | instantiation identifier _ cppType _ _ _ => [(cppType, identifier)]
  | module_ _ _ _ => []
  | function _ _ => []
  | constant _ _ _ => []
  | variable_ _ _ _ _ => []

/-- The identifiers that a fragment defines, those of the classes inside it among them. -/
def definedIdentifiers : Fragment → List String
  | class_ binding => binding.identifier :: binding.opaqueClasses.map (·.identifier)
  | fragment => fragment.identifier?.toList

end Fragment

/-- The members of a class template as a function for all instantiations. -/
structure Builder where
  name : String
  templateParams : List String
  cppType : String
  members : List Member
  aliases : List Alias
deriving Repr, DecidableEq

/-- The free operators of one class. -/
structure OperatorGroup where
  target : Option String
  cppType : String
  operators : List Lambda
deriving Repr, DecidableEq

/-- What an iterator class does not tell about itself. -/
structure IteratorTraits where
  cppType : String
  valueType : String
  isConst : Bool
deriving Repr, DecidableEq

/-- Everything generated for one source unit. -/
structure UnitBindings where
  relativePath : String
  initName : String
  headerInclude : String
  builderIncludes : List String
  fragments : List Fragment
  builders : List Builder
  operators : List OperatorGroup
  iteratorTraits : List IteratorTraits
deriving Repr, DecidableEq

/-- The units of a project in the order in which they were processed. -/
structure ProjectBindings where
  name : String
  initName : String
  units : List UnitBindings
deriving Repr, DecidableEq

end Bindery
