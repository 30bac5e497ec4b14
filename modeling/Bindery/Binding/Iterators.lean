import Bindery.Binding.Fragment
import Bindery.Spelling.Speller
import Bindery.Text.Substitution

/-!
# Iterators

Pairs of begin and end methods become Ruby iterators.  For an iterator class that does not declare
its traits they are inferred from its dereference operator.
-/

set_option autoImplicit false

namespace Bindery

/-- The methods that are bound as iterators and not as ordinary methods. -/
def iteratorMethods : List String :=
  ["begin", "end", "rbegin", "rend", "cbegin", "cend", "crbegin", "crend"]

def isIteratorMethod (name : String) : Bool :=
  iteratorMethods.contains name

/-- The iterators of a class: members, second names for them, and the begin methods they use. -/
structure IteratorBindings where
  members : List Member
  aliases : List Alias
  begins : List DeclId
deriving Repr, DecidableEq

namespace DeclTree

/-- The first public method of a class with the given name and constness that takes no arguments
and needs an object. -/
def boundMethod? (tree : DeclTree) (id : DeclId) (name : String) (isConst : Bool) :
    Option DeclId :=
  (tree.children id).find? fun child =>
    let decl := tree.decl child
    decl.kind == .method && decl.spelling == name && !decl.has .isStatic && !decl.has .isDeleted
      && decl.access == .isPublic && (tree.parameters child).isEmpty
      && decl.has .isConst == isConst

/-- The begin method of a complete pair of the given constness. -/
def beginOfPair? (tree : DeclTree) (id : DeclId) (first last : String) (isConst : Bool) :
    Option DeclId := do
  let start ← tree.boundMethod? id first isConst
  let _ ← tree.boundMethod? id last isConst
  some start

end DeclTree

namespace Speller

def pairBindings (speller : Speller) (id : DeclId) (classType first last rubyName : String) :
    IteratorBindings :=
  let mutable := speller.tree.beginOfPair? id first last false
  let constant := speller.tree.beginOfPair? id first last true
  let overloaded := mutable.isSome && constant.isSome
  let iterator (start : DeclId) (name : String) : Member :=
    .iterator name ("&" ++ classType ++ "::" ++ first) ("&" ++ classType ++ "::" ++ last)
      (if overloaded then some (speller.methodSignature start classType) else none)
  let constName := rubyName ++ "_const"
  ⟨(mutable.map (iterator · rubyName)).toList ++ (constant.map (iterator · constName)).toList,
    if mutable.isNone && constant.isSome then [⟨rubyName, constName⟩] else [],
    mutable.toList ++ constant.toList⟩

/-- The iterators of a class.  A class with constant iterators alone can be iterated by the plain
name too. -/
def iteratorBindings (speller : Speller) (id : DeclId) (classType : String) : IteratorBindings :=
  let forward := speller.pairBindings id classType "begin" "end" "each"
  let backward := speller.pairBindings id classType "rbegin" "rend" "each_reverse"
  ⟨forward.members ++ backward.members, forward.aliases ++ backward.aliases,
    forward.begins ++ backward.begins⟩

/-- The types that an iterator class is to declare. -/
def traitNames : List String :=
  ["value_type", "reference", "pointer", "difference_type", "iterator_category"]

/-- Whether the classes together declare all traits. -/
def declaresAllTraits (tree : DeclTree) (sources : List DeclId) : Bool :=
  traitNames.all fun name =>
    sources.any fun source =>
      (tree.children source).any fun child =>
        (tree.decl child).kind.isTypedef && (tree.decl child).spelling == name

/-- The first dereference operator of the classes. -/
def dereference? (tree : DeclTree) (sources : List DeclId) : Option DeclId :=
  sources.findSome? fun source =>
    (tree.children source).find? fun child =>
      (tree.decl child).kind == .method && (tree.decl child).spelling == "operator*"

/-- What the spelling of a dereferenced iterator says about its traits. -/
def traitsOf (cppType reference : String) : IteratorTraits :=
  let value := Text.trim (Text.dropEndCopies '&' reference)
  ⟨cppType, Text.dropCopies "const " value, Text.startsWith "const " value⟩

/-- The spelling of a dereferenced iterator; an operator of the template is spelled for the
instantiation. -/
def dereferencedType (speller : Speller) (iterator dereference : DeclId) (result : TypeId) :
    String :=
  let tree := speller.tree
  let spelled := speller.spell result
  match (tree.decl iterator).specializedTemplate with
  | some template =>
      if tree.semanticParent dereference = some template then
        let args := ((Text.splitTemplate (tree.decl iterator).displayName).map
          fun (_, args, _) => Text.templateArgs args).getD []
        Text.substitute spelled (tree.parameterNames template) args
      else
        spelled
  | none => spelled

/-- The traits of the iterator that a begin method returns, if its class does not declare them. -/
def inferTraits? (speller : Speller) (start : DeclId) (inTemplate : Bool) :
    Option IteratorTraits := do
  let tree := speller.tree
  if inTemplate then none
  let iteratorType := tree.nonReference (← (tree.decl start).resultType)
  if (tree.type (tree.canonical iteratorType)).kind = .pointer then none
  let iterator ← tree.typeDeclaration iteratorType
  let decl := tree.decl iterator
  if !decl.kind.isRecord || tree.isStd iterator then none
  let sources := iterator :: decl.definition.toList ++ decl.specializedTemplate.toList
  if declaresAllTraits tree sources then none
  let dereference ← dereference? tree sources
  let result ← (tree.decl dereference).resultType
  some (traitsOf (tree.canonicalSpelling iteratorType)
    (speller.dereferencedType iterator dereference result))

end Speller

end Bindery
