import Bindery.Binding.Iterators
import Bindery.Proofs.Spelling.Values

/-!
# Traits read off a spelling

The traits of an iterator class that does not declare them are read off the spelling of what its
dereference operator returns.  Whether the value is constant is told from the front of that text,
where the `const` of a value stands; that of what a pointer points at stands there too, and is taken
for the one of the pointer.
-/

set_option autoImplicit false

namespace Bindery

/-- Whether traits tell whether the value is constant, and the type of the value without that
`const`. -/
def IteratorTraits.Tell (traits : IteratorTraits) (isConst : Bool) (valueType : String) : Prop :=
  traits.isConst = isConst ∧ traits.valueType = valueType

namespace Speller

/-- The class of the iterator that a begin method returns, the first dereference operator that it
has of its own, by its definition or by its template, and what that returns. -/
def dereferenced? (speller : Speller) (start : DeclId) : Option (DeclId × DeclId × TypeId) := do
  let tree := speller.tree
  let iterator ← tree.typeDeclaration (tree.nonReference (← (tree.decl start).resultType))
  let decl := tree.decl iterator
  let dereference ←
    dereference? tree (iterator :: decl.definition.toList ++ decl.specializedTemplate.toList)
  some (iterator, dereference, ← (tree.decl dereference).resultType)

/-- The parameters in the type of a dereference operator and the arguments that are written for
them; there are none unless the template declares the operator. -/
def operatorArgs (speller : Speller) (iterator dereference : DeclId) :
    List String × List String :=
  let tree := speller.tree
  match (tree.decl iterator).specializedTemplate with
  | some template =>
      if tree.semanticParent dereference = some template then
        (tree.parameterNames template,
          ((Text.splitTemplate (tree.decl iterator).displayName).map
            fun (_, args, _) => Text.templateArgs args).getD [])
      else
        ([], [])
  | none => ([], [])

/-- A text of the type of a dereference operator, as it reads for the instantiation. -/
def instantiated (speller : Speller) (iterator dereference : DeclId) (text : String) : String :=
  Text.substitute text (speller.operatorArgs iterator dereference).1
    (speller.operatorArgs iterator dereference).2

variable {speller : Speller}

theorem dereferencedType_eq (iterator dereference : DeclId) (result : TypeId) :
    speller.dereferencedType iterator dereference result =
      speller.instantiated iterator dereference (speller.spell result) := by
  unfold dereferencedType instantiated operatorArgs
  dsimp only
  cases (speller.tree.decl iterator).specializedTemplate with
  | none => exact (Text.substitute_nil _ []).symm
  | some template =>
      dsimp only
      split
      · rfl
      · exact (Text.substitute_nil _ []).symm

/-- What is inferred is read off the spelling of what the dereference operator returns. -/
theorem inferTraits?_eq_some {start : DeclId} {inTemplate : Bool} {traits : IteratorTraits}
    (inferred : speller.inferTraits? start inTemplate = some traits) :
    ∃ iterator dereference result cppType,
      speller.dereferenced? start = some (iterator, dereference, result) ∧
        traits = traitsOf cppType (speller.dereferencedType iterator dereference result) := by
  have passed {refused : Prop} [Decidable refused] {rest : Option IteratorTraits}
      (run : (if refused then none else rest) = some traits) : rest = some traits := by
    split at run
    · cases run
    · exact run
  unfold inferTraits? at inferred
  obtain ⟨type, returns, rest⟩ := Option.bind_eq_some_iff.mp (passed inferred)
  obtain ⟨iterator, declared, rest⟩ := Option.bind_eq_some_iff.mp (passed rest)
  obtain ⟨dereference, found, rest⟩ := Option.bind_eq_some_iff.mp (passed (passed rest))
  obtain ⟨result, gives, made⟩ := Option.bind_eq_some_iff.mp rest
  refine ⟨iterator, dereference, result, _, ?_, (Option.some.inj made).symm⟩
  simp only [dereferenced?, returns, declared, found, gives, Option.bind_eq_bind, Option.bind_some]

/-- The references around a type leave no trace in what its spelling tells. -/
theorem tell_of_spelled {bare value marks cppType : String} {isConst isBehind : Bool}
    (qualified : Text.Qualified bare isConst isBehind value)
    (all : ∀ c ∈ marks.toList, c = '&') :
    (traitsOf cppType (value ++ marks)).Tell isConst bare ↔
      Text.ShowsOwnConst isBehind bare value := by
  have read : (traitsOf cppType (value ++ marks)).Tell isConst bare ↔
      Text.TellsConst (value ++ marks) isConst bare := by
    rw [IteratorTraits.Tell, traitsOf, Text.TellsConst, Text.withoutMarks]
  rw [read, Text.tellsConst_append all, qualified.tellsConst_iff]

/-- Traits tell the constness and the type of the value exactly if the spelling shows its `const` in
front.  That goes for the type that the operator is declared with, the arguments written into its
spelling, and also for any type that is spelled as the instantiated one. -/
theorem traits_tell_value_iff {start : DeclId} {inTemplate : Bool} {traits : IteratorTraits}
    (finite : speller.tree.HasFiniteTypes)
    (inferred : speller.inferTraits? start inTemplate = some traits) :
    ∃ iterator dereference result,
      speller.dereferenced? start = some (iterator, dereference, result) ∧
      ("const" ∉ (speller.operatorArgs iterator dereference).1 →
        (traits.Tell (speller.isConstValue result)
            (speller.instantiated iterator dereference (speller.bareValue result)) ↔
          Text.ShowsOwnConst (speller.isConstPointer result)
            (speller.instantiated iterator dereference (speller.bareValue result))
            (speller.instantiated iterator dereference
              (speller.spell (speller.tree.nonReference result))))) ∧
      ∀ (view : Speller) (type : TypeId), view.tree.HasFiniteTypes →
        view.spell type = speller.dereferencedType iterator dereference result →
        (traits.Tell (view.isConstValue type) (view.bareValue type) ↔
          Text.ShowsOwnConst (view.isConstPointer type) (view.bareValue type)
            (view.spell (view.tree.nonReference type))) := by
  obtain ⟨iterator, dereference, result, cppType, found, rfl⟩ := inferTraits?_eq_some inferred
  refine ⟨iterator, dereference, result, found, fun keyword => ?_, fun view type finite same => ?_⟩
  · obtain ⟨marks, all, spelled⟩ := exists_spell_eq_append_marks finite result
    have others : ∀ c ∈ marks.toList, Chars.isIdentChar c = false := by
      intro c member
      rw [all c member]
      decide
    rw [dereferencedType_eq, spelled, instantiated, instantiated, instantiated,
      Text.substitute_append_others others]
    exact tell_of_spelled ((qualified_spell finite result).substitute keyword _) all
  · obtain ⟨marks, all, spelled⟩ := exists_spell_eq_append_marks finite type
    rw [← same, spelled]
    exact tell_of_spelled (qualified_spell finite type) all

/-- A template of iterators over constants, and a class that is iterated by an instantiation. -/
def pixelTree : DeclTree :=
  ((TreeBuilder.start "/src/unit.hpp").performAll
    [.classTemplate 0 "Iter" ["_Tp"],
     .templateParamType 2,
     .const 0,
     .derived .lvalueRef 1,
     .function .method 1 "operator*" 2,
     .specialization 1 "unsigned char",
     .named 4,
     .add 0 .classDecl "Mat",
     .function .method 5 "begin" 4]).tree

theorem pixels_are_told :
    (ofTree pixelTree).inferTraits? 6 false =
        some ⟨"Iter<unsigned char>", "unsigned char", true⟩ ∧
      (ofTree pixelTree).dereferenced? 6 = some (4, 3, 2) ∧
      IteratorTraits.Tell ⟨"Iter<unsigned char>", "unsigned char", true⟩
        ((ofTree pixelTree).isConstValue 2)
        ((ofTree pixelTree).instantiated 4 3 ((ofTree pixelTree).bareValue 2)) := by
  have finite : (ofTree pixelTree).tree.HasFiniteTypes :=
    DeclTree.hasFiniteTypes_of_earlier (by decide +kernel)
  have inferred : (ofTree pixelTree).inferTraits? 6 false =
      some ⟨"Iter<unsigned char>", "unsigned char", true⟩ := by
    decide +kernel
  have read : (ofTree pixelTree).dereferenced? 6 = some (4, 3, 2) := by decide +kernel
  obtain ⟨iterator, dereference, result, found, declared, -⟩ :=
    traits_tell_value_iff finite inferred
  cases Option.some.inj (found.symm.trans read)
  refine ⟨inferred, read, (declared (by decide +kernel)).mpr ⟨?_, ?_, ?_⟩⟩ <;> decide +kernel

/-- A class of iterators over pointers to constants, and a class that is iterated by it. -/
def pointerTree : DeclTree :=
  ((TreeBuilder.start "/src/unit.hpp").performAll
    [.add 0 .classDecl "Iter",
     .builtin "int",
     .const 0,
     .derived .pointer 1,
     .function .method 1 "operator*" 2,
     .named 1,
     .add 0 .classDecl "List",
     .function .method 3 "begin" 4]).tree

/-- The pointers are taken to be constant, and what they point at is taken not to be. -/
theorem pointer_to_const_is_mistold :
    (ofTree pointerTree).inferTraits? 4 false = some ⟨"Iter", "int*", true⟩ ∧
      (ofTree pointerTree).dereferenced? 4 = some (1, 2, 2) ∧
      (ofTree pointerTree).isConstValue 2 = false ∧
      (ofTree pointerTree).bareValue 2 = "const int*" := by
  decide +kernel

end Speller

end Bindery
