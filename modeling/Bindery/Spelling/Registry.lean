import Bindery.Tree.Query

/-!
# Names of types

Which typedef names a type, and which qualified name a simple one stands for, for every typedef
and class template of a unit, its included headers among them.
-/

set_option autoImplicit false

namespace Bindery

/-- An entry of a registry, with whether it comes from the standard library. -/
structure Registered (α : Type) where
  key : String
  value : α
  isStd : Bool
deriving Repr, DecidableEq

namespace Registered

variable {α : Type}

def find? (entries : List (Registered α)) (key : String) : Option α :=
  (entries.find? (·.key == key)).map (·.value)

/-- Adds an entry.  The first entry of a key stays, except that an entry from outside the standard
library takes the place of one from inside. -/
def insert (entries : List (Registered α)) (entry : Registered α) : List (Registered α) :=
  match entries.find? (·.key == entry.key) with
  | none => entries ++ [entry]
  | some existing =>
      if existing.isStd && !entry.isStd then
        entries.map fun other => if other.key == entry.key then entry else other
      else
        entries

end Registered

/-- The typedefs by the canonical spelling of the type they name, and the qualified names of
typedefs and class templates by their simple names. -/
structure TypeRegistries where
  typedefs : List (Registered DeclId)
  typeNames : List (Registered String)
deriving Repr, DecidableEq

namespace TypeRegistries

def empty : TypeRegistries :=
  ⟨[], []⟩

/-- Whether a declaration is a typedef that means the same everywhere: one with a name and outside
class templates. -/
def isPlainTypedef (tree : DeclTree) (id : DeclId) : Bool :=
  let decl := tree.decl id
  (decl.kind == .typedefDecl || decl.kind == .typeAlias) && !decl.anonymous
    && !tree.inClassTemplate id

def namesType (tree : DeclTree) (id : DeclId) : Bool :=
  isPlainTypedef tree id
    || ((tree.decl id).kind == .classTemplate && !(tree.decl id).anonymous)

/-- The entry of a typedef under the canonical spelling of its type. -/
def registeredType? (tree : DeclTree) (id : DeclId) : Option (Registered DeclId) :=
  if isPlainTypedef tree id then
    (tree.decl id).underlyingType.map fun type =>
      ⟨tree.canonicalSpelling type, id, tree.isStd id⟩
  else
    none

/-- The entry of a typedef or class template under its simple name. -/
def registeredName? (tree : DeclTree) (id : DeclId) : Option (Registered String) :=
  if namesType tree id then
    some ⟨(tree.decl id).spelling, tree.qualifiedName id, tree.isStd id⟩
  else
    none

def ofTree (tree : DeclTree) : TypeRegistries :=
  ⟨(tree.ids.filterMap (registeredType? tree)).foldl Registered.insert [],
    (tree.ids.filterMap (registeredName? tree)).foldl Registered.insert []⟩

def typedefFor? (registries : TypeRegistries) (canonical : String) : Option DeclId :=
  Registered.find? registries.typedefs canonical

/-- The qualified name of the typedef or class template of a simple name. -/
def qualifiedName? (registries : TypeRegistries) (simple : String) : Option String :=
  Registered.find? registries.typeNames simple

end TypeRegistries

end Bindery
