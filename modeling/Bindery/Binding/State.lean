import Bindery.Binding.Operators
import Bindery.Path

/-!
# What a run knows

The state of one unit while it is traversed, and the index that units leave to later ones.
-/

set_option autoImplicit false

namespace Bindery

/-- Where the builder of a class template is: its name and its file. -/
structure BuilderLocation where
  name : String
  ippPath : String
deriving Repr, DecidableEq

/-- What earlier units made: the builders of class templates by qualified name, and the identifiers
of bound C++ types. -/
structure ProjectIndex where
  builders : List (String × BuilderLocation)
  classes : List (String × String)
deriving Repr, DecidableEq

namespace ProjectIndex

/-- The index before the first unit. -/
def empty : ProjectIndex :=
  ⟨[], []⟩

def builder? (index : ProjectIndex) (template : String) : Option BuilderLocation :=
  index.builders.lookup template

/-- Adds a builder; the first one of a template stays. -/
def recordBuilder (index : ProjectIndex) (template : String) (location : BuilderLocation) :
    ProjectIndex :=
  if (index.builder? template).isSome then index
  else { index with builders := index.builders ++ [(template, location)] }

/-- The identifier of a bound C++ type. -/
def knownClass? (index : ProjectIndex) (cppType : String) : Option String :=
  index.classes.lookup cppType

/-- Adds a bound type; the first identifier of a type stays. -/
def recordClass (index : ProjectIndex) (cppType identifier : String) : ProjectIndex :=
  if (index.knownClass? cppType).isSome then index
  else { index with classes := index.classes ++ [(cppType, identifier)] }

end ProjectIndex

/-- Puts a value under a key: in the place of the value that is there, or behind all others. -/
def assign {α : Type} (key : String) (value : α) (entries : List (String × α)) :
    List (String × α) :=
  if (entries.lookup key).isSome then
    entries.map fun entry => if entry.1 = key then (key, value) else entry
  else
    entries ++ [(key, value)]

/-- The state of a unit: the namespaces that have a module; the bindings by identifier, in the order
in which they were made, and by C++ type; the instantiations made without a typedef; operators,
iterator traits and builders; the fragments that go before the one being made; and the files that
the builders in use come from. -/
structure UnitState where
  namespaces : List String
  bindings : List (String × String)
  byType : List (String × String)
  autoGenerated : List String
  operators : OperatorQueue
  iteratorTraits : List IteratorTraits
  pending : List Fragment
  builders : List Builder
  localBuilders : List (String × String)
  builderIncludes : List String
deriving Repr, DecidableEq

namespace UnitState

def empty : UnitState :=
  ⟨[], [], [], [], OperatorQueue.empty, [], [], [], [], []⟩

def identifierFor? (state : UnitState) (cppType : String) : Option String :=
  state.byType.lookup cppType

/-- The owner of an identifier that another type asks for; none if the type is bound already. -/
def collision? (state : UnitState) (identifier cppType : String) : Option String :=
  if (state.identifierFor? cppType).isSome then none else state.bindings.lookup identifier

/-- Binds a C++ type to an identifier, unless one of them is taken. -/
def register? (state : UnitState) (identifier cppType : String) : Option UnitState :=
  if (state.identifierFor? cppType).isSome || (state.bindings.lookup identifier).isSome then
    none
  else
    some
      { state with
        byType := state.byType ++ [(cppType, identifier)]
        bindings := state.bindings ++ [(identifier, cppType)] }

/-- Opens the module of a namespace that has none. -/
def openModule (state : UnitState) (qualified identifier : String) : UnitState :=
  { state with
    namespaces := state.namespaces ++ [qualified]
    bindings := assign identifier qualified state.bindings }

/-- Notes that an instantiation is made without a typedef. -/
def markGenerated (state : UnitState) (cppType : String) : UnitState :=
  { state with autoGenerated := cppType :: state.autoGenerated }

/-- Lets a free operator wait for its class. -/
def pushOperator (state : UnitState) (operator : FreeOperator) : UnitState :=
  { state with operators := state.operators.push operator }

/-- Adds the traits of an iterator class that has none. -/
def addTraits (state : UnitState) (traits : IteratorTraits) : UnitState :=
  if state.iteratorTraits.any (·.cppType == traits.cppType) then state
  else { state with iteratorTraits := state.iteratorTraits ++ [traits] }

/-- Adds a file of builders that is not there yet. -/
def includeBuilders (state : UnitState) (path : String) : UnitState :=
  if state.builderIncludes.any (Path.same path) then state
  else { state with builderIncludes := state.builderIncludes ++ [path] }

/-- Adds the builder of a class template. -/
def addBuilder (state : UnitState) (template : String) (builder : Builder) : UnitState :=
  { state with
    localBuilders := assign template builder.name state.localBuilders
    builders := state.builders ++ [builder] }

/-- The classes that have been bound, each C++ type with its identifier. -/
def classes (state : UnitState) : List (String × String) :=
  (state.bindings.filter fun entry => Text.startsWith "rb_c" entry.1).map fun entry =>
    (entry.2, entry.1)

end UnitState

end Bindery
