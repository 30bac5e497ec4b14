import Bindery.Binding.Scope
import Bindery.Spelling.BaseClass

/-!
# Instantiations of class templates

An instantiation that is used as a base, a parameter or a result has to be bound before that use.
If no typedef names it and nothing has bound it yet, it is synthesized, its own base first.
-/

set_option autoImplicit false

namespace Bindery

namespace UnitContext

/-- Whether the rules admit an instantiation; reports one that they skip. -/
def admitsInstantiation (context : UnitContext) (template : DeclId) (cppType : String)
    (args : List String) : Gen Bool := do
  if context.tree.isStd template then
    return false
  else
    let simple := (context.tree.decl template).spelling
    match context.options.skip.lookup [cppType, simple, Text.joinArgs args] with
    | some found =>
        Gen.report (.baseSkippedByRule cppType found.candidate)
        return false
    | none =>
        match context.options.skip.mentionedIn cppType with
        | some symbol =>
            Gen.report (.baseMentionsSkipped cppType symbol)
            return false
        | none => return true

/-- Whether an instantiation is bound already or will be by its typedef. -/
def isBound (context : UnitContext) (state : UnitState) (cppType : String) : Bool :=
  (context.speller.registries.typedefFor? cppType).isSome || state.autoGenerated.contains cppType
    || (context.boundIdentifier? state cppType).isSome

/-- The builder of a class template, if there is one; its file is included when it comes from
another unit. -/
def builderCall (context : UnitContext) (template : DeclId) (args : List String) :
    Gen (Option BuilderCall) := do
  let qualified := context.tree.qualifiedName template
  match (← Gen.unit).localBuilders.lookup qualified with
  | some name => return some ⟨name, args⟩
  | none =>
      match context.index.builder? qualified with
      | some location =>
          Gen.change (·.includeBuilders location.ippPath)
          return some ⟨location.name, args⟩
      | none => return none

/-- The base to declare for a class; `require` sees to a base that is an instantiation. -/
def bindBase (context : UnitContext)
    (require : DeclId → String → List String → Gen (Option String)) :
    BaseClass → Gen (Option String)
  | .instantiation template cppType args => require template cppType args
  | .plain cppType decl => do
      let excluded ←
        match decl with
        | some id => if context.tree.isStd id then pure true else context.skipped id
        | none => pure false
      if excluded || (context.options.skip.mentionedIn cppType).isSome then
        return none
      else
        return some cppType

/-- The Ruby name of a synthesized instantiation: that of the template, and the arguments. -/
def synthesizedName (context : UnitContext) (template : DeclId) (args : List String) : String :=
  context.options.namer.className (context.tree.decl template).spelling
    (context.tree.qualifiedName template) ++ Name.argumentSuffix args

def synthesizedIdentifier (context : UnitContext) (template : DeclId) (args : List String) :
    String :=
  let scope := ((context.tree.semanticParent template).map context.tree.qualifiedName).getD ""
  let name := context.synthesizedName template args
  Name.classIdentifier (if scope.isEmpty then name else scope ++ "::" ++ name)

/-- Binds an instantiation that no typedef names, with the given base, in the scope of its
template. -/
def synthesize (context : UnitContext) (template : DeclId) (cppType : String)
    (args : List String) (base : Option String) : Gen Unit := do
  let parent ← context.ensureScope (context.tree.semanticParent template)
  let identifier := context.synthesizedIdentifier template args
  if ← Gen.register identifier cppType then
    let builder ← context.builderCall template args
    Gen.report (.autoGenerated cppType identifier)
    Gen.enqueue (.instantiation identifier (context.synthesizedName template args) cppType base
      parent builder)

/-- Sees to it that the instantiation of a template spelled `cppType` is bound before its use;
gives its spelling, or none if it is not to be bound.  At most `depth` instantiations are
synthesized each for the sake of the one before. -/
def requireInstantiationTo (context : UnitContext) :
    Nat → DeclId → String → List String → Gen (Option String)
  | depth, template, cppType, args => do
      if !(← context.admitsInstantiation template cppType args) then
        return none
      else if context.isBound (← Gen.unit) cppType then
        return some cppType
      else
        match depth with
        | 0 => failure
        | depth + 1 =>
            Gen.change (·.markGenerated cppType)
            let base ←
              match context.speller.instantiateBase? template args with
              | some base => context.bindBase (context.requireInstantiationTo depth) base
              | none => pure none
            context.synthesize template cppType args base
            return some cppType

/-- Sees to it that an instantiation is bound before its use. -/
def requireInstantiation (context : UnitContext) :
    DeclId → String → List String → Gen (Option String) :=
  context.requireInstantiationTo context.depth

/-- The base to declare for a class, bound if it is an instantiation. -/
def declaredBase (context : UnitContext) : Option BaseClass → Gen (Option String)
  | some base => context.bindBase context.requireInstantiation base
  | none => return none

/-- The type of the values that a type passes, a pointer or a reference taken off. -/
def passedType (tree : DeclTree) (id : TypeId) : TypeId :=
  let value := tree.nonReference id
  let type := tree.type value
  if type.kind == .pointer then type.pointee.getD value else value

/-- The class template behind a type that is an instantiation and that no typedef names, the
spelling of the type and its arguments. -/
def unnamedInstantiation? (context : UnitContext) (id : TypeId) :
    Option (DeclId × String × List String) := do
  let tree := context.tree
  let value := passedType tree id
  let template ← (tree.decl (← tree.typeDeclaration value)).specializedTemplate
  let canonical := Text.dropCopies "const " (tree.canonicalSpelling value)
  if (context.speller.registries.typedefFor? canonical).isSome then none
  let cppType := Text.dropCopies "const " (context.speller.spell value)
  let (_, args, _) ← Text.splitTemplate cppType
  some (template, cppType, Text.templateArgs args)

/-- Sees to it that the type of a parameter or result is bound if it is an instantiation. -/
def ensureInstantiation (context : UnitContext) (id : TypeId) : Gen Unit := do
  if let some (template, cppType, args) := context.unnamedInstantiation? id then
    let _ ← context.requireInstantiation template cppType args

end UnitContext

end Bindery
