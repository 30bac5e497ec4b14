import Bindery.Spelling.Speller

/-!
# Base classes

The first public base of a class, spelled for generated code.  Inside a template the base may
depend on the parameters, which are replaced by the arguments of an instantiation.
-/

set_option autoImplicit false

namespace Bindery

/-- A base class: an instantiation of a class template, or any other class. -/
inductive BaseClass where
  | instantiation (template : DeclId) (cppType : String) (args : List String)
  | plain (cppType : String) (decl : Option DeclId)
deriving Repr, DecidableEq

def BaseClass.cppType : BaseClass → String
  | instantiation _ cppType _ => cppType
  | plain cppType _ => cppType

namespace DeclTree

def publicBase? (tree : DeclTree) (id : DeclId) : Option DeclId :=
  (tree.children id).find? fun child =>
    let decl := tree.decl child
    decl.kind == .baseSpecifier && decl.access == .isPublic

/-- The class template behind a base, if the base is an instantiation of one. -/
def baseTemplate? (tree : DeclTree) (base : DeclId) : Option DeclId :=
  let mentioned := (tree.children base).findSome? fun child =>
    let decl := tree.decl child
    if decl.kind == .templateRef then decl.referenced else none
  mentioned.or do
    let declaration ← tree.typeDeclaration (← (tree.decl base).type)
    if (tree.decl declaration).kind == .classTemplate then some declaration
    else (tree.decl declaration).specializedTemplate

end DeclTree

namespace Speller

def resolveBase? (speller : Speller) (id : DeclId) (params args : List String) :
    Option BaseClass := do
  let tree := speller.tree
  let base ← tree.publicBase? id
  let type ← (tree.decl base).type
  let spelled := speller.spell type
  match tree.baseTemplate? base, Text.splitTemplate spelled with
  | some template, some (_, written, "") =>
      let args := (Text.templateArgs written).map fun arg => Text.substitute arg params args
      some (.instantiation template
        (tree.qualifiedName template ++ "<" ++ Text.joinArgs args ++ ">") args)
  | _, _ => some (.plain spelled (tree.typeDeclaration type))

def instantiateBase? (speller : Speller) (template : DeclId) (args : List String) :
    Option BaseClass :=
  speller.resolveBase? template (speller.tree.parameterNames template) args

end Speller

end Bindery
