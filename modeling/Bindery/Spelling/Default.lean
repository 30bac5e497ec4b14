import Bindery.Text.DefaultValue
import Bindery.Tree.Query

/-!
# Default arguments

The default value of a parameter, cut from its source text, with the names in it written out as the
references of the tree tell.
-/

set_option autoImplicit false

namespace Bindery

namespace DeclTree

/-- The name by which an expression can use a declaration from outside its scope. -/
def referenceName (tree : DeclTree) (target : DeclId) : String :=
  let name := (tree.decl target).spelling
  match (tree.decl target).kind with
  | .typedefDecl | .typeAlias =>
      match if tree.inClassTemplate target then tree.semanticParent target else none with
      | some parent => tree.qualifiedDisplayName parent ++ "::" ++ name
      | none => tree.qualifiedName target
  | .enumConstant =>
      let parent := tree.semanticParent target
      if parent.any fun parent => (tree.decl parent).has .isScopedEnum then
        tree.qualifiedName target
      else
        let scope := ((parent.bind tree.semanticParent).map tree.qualifiedName).getD ""
        if scope.isEmpty then name else scope ++ "::" ++ name
  | _ => tree.qualifiedName target

/-- The expression node of a parameter's default: its last child that is no part of its type. -/
def defaultExpression? (tree : DeclTree) (param : DeclId) : Option DeclId :=
  (tree.children param).reverse.find? fun child =>
    let kind := (tree.decl child).kind
    !(kind == .typeRef || kind == .templateRef || kind == .namespaceRef)

/-- The use of a name by a reference.  A name that came through a macro does not end the name of
what it refers to, and does not count; nor does one that needs no scope. -/
def nameUse? (tree : DeclTree) (id : DeclId) : Option NameUse := do
  let decl := tree.decl id
  let target ←
    if decl.kind == .typeRef || decl.kind == .templateRef || decl.kind == .declRef then
      decl.referenced
    else
      none
  let simple := Text.simpleName decl.spelling
  let qualified := tree.referenceName target
  if simple.isEmpty || !Text.endsWith simple qualified || simple == qualified then
    none
  else
    some ⟨simple, qualified⟩

def nameUses (tree : DeclTree) (param : DeclId) : List NameUse :=
  match tree.defaultExpression? param with
  | none => []
  | some expression =>
      ((expression :: tree.descendants expression).filterMap tree.nameUse?).foldl
        (fun uses use => if uses.contains use then uses else uses ++ [use]) []

/-- The default value of a parameter with its names written out. -/
def defaultValue? (tree : DeclTree) (param : DeclId) : Option String :=
  (Text.defaultValue? (tree.decl param).extent).map fun literal =>
    NameUse.qualifyAll literal (tree.nameUses param)

end DeclTree

end Bindery
