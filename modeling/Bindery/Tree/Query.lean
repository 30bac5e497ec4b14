import Bindery.Path
import Bindery.Text.Blank
import Bindery.Tree.Decl

/-!
# Questions about a declaration tree

Names, scopes and types as a tree tells them.  Chains of links are followed for as many steps as
the tree has nodes, which reaches the end of every chain that has one.
-/

set_option autoImplicit false

namespace Bindery

namespace DeclTree

def children (tree : DeclTree) (id : DeclId) : List DeclId :=
  (tree.decl id).children

/-- The declarations below another, each before its own children, down to a depth. -/
def descendantsTo (tree : DeclTree) : Nat → DeclId → List DeclId
  | 0, _ => []
  | depth + 1, id =>
      (tree.children id).flatMap fun child => child :: tree.descendantsTo depth child

/-- The declarations below another, each before its own children. -/
def descendants (tree : DeclTree) (id : DeclId) : List DeclId :=
  tree.descendantsTo tree.size id

def semanticParent (tree : DeclTree) (id : DeclId) : Option DeclId :=
  (tree.decl id).semanticParent

/-- The declarations that a declaration belongs to, the innermost first, up to a number. -/
def ancestorsTo (tree : DeclTree) : Nat → DeclId → List DeclId
  | 0, _ => []
  | depth + 1, id =>
      match tree.semanticParent id with
      | none => []
      | some parent => parent :: tree.ancestorsTo depth parent

/-- The declarations that a declaration belongs to, the innermost first. -/
def ancestors (tree : DeclTree) (id : DeclId) : List DeclId :=
  tree.ancestorsTo tree.size id

/-- Whether a scope leaves no trace in qualified names: the unit itself, linkage specifications,
inline namespaces, and whatever has no name. -/
def isTransparent (decl : Decl) : Bool :=
  match decl.kind with
  | .unitRoot | .linkageSpec => true
  | .namespaceDecl => decl.has .isInlineNamespace || decl.anonymous
  | _ => decl.anonymous

/-- The names of the scopes around a declaration, the outermost first. -/
def scopeComponents (tree : DeclTree) (id : DeclId) : List String :=
  (((tree.ancestors id).map tree.decl).filter fun decl => !isTransparent decl).reverse.map
    (·.spelling)

/-- The qualified name of the scope around a declaration. -/
def scopeName (tree : DeclTree) (id : DeclId) : String :=
  "::".intercalate (tree.scopeComponents id)

def qualifiedName (tree : DeclTree) (id : DeclId) : String :=
  let name := (tree.decl id).spelling
  "::".intercalate (tree.scopeComponents id ++ if name.isEmpty then [] else [name])

/-- The children of a declaration whose kind satisfies `p`. -/
def childrenOfKind (tree : DeclTree) (p : DeclKind → Bool) (id : DeclId) : List DeclId :=
  (tree.children id).filter fun child => p (tree.decl child).kind

def templateParameters (tree : DeclTree) (id : DeclId) : List DeclId :=
  tree.childrenOfKind DeclKind.isTemplateParameter id

def parameterNames (tree : DeclTree) (id : DeclId) : List String :=
  (tree.templateParameters id).map fun param => (tree.decl param).spelling

def parameters (tree : DeclTree) (id : DeclId) : List DeclId :=
  tree.childrenOfKind (· == .paramDecl) id

/-- The qualified name of a declaration, followed by its template parameters if it has some. -/
def qualifiedDisplayName (tree : DeclTree) (id : DeclId) : String :=
  let qualified := tree.qualifiedName id
  match tree.parameterNames id with
  | [] => qualified
  | names => qualified ++ "<" ++ ", ".intercalate names ++ ">"

/-- Whether a declaration belongs to the standard library or to the compiler. -/
def isStd (tree : DeclTree) (id : DeclId) : Bool :=
  (tree.decl id).location.inSystemHeader
    || (let name := tree.qualifiedName id
        name == "std" || Text.startsWith "std::" name || Text.startsWith "__" name)

def inClassTemplate (tree : DeclTree) (id : DeclId) : Bool :=
  (tree.semanticParent id).any fun parent => (tree.decl parent).kind.isClassTemplate

def canonical (tree : DeclTree) (id : TypeId) : TypeId :=
  (tree.type id).canonical.getD id

def canonicalSpelling (tree : DeclTree) (id : TypeId) : String :=
  (tree.type (tree.canonical id)).bareSpelling

/-- The declaration behind a type, found within a number of steps. -/
def typeDeclarationTo (tree : DeclTree) : Nat → TypeId → Option DeclId
  | 0, _ => none
  | depth + 1, id =>
      let type := tree.type id
      match type.kind with
      | .elaborated => type.declaration.or (type.pointee.bind (tree.typeDeclarationTo depth))
      | _ => type.declaration

/-- The declaration behind a type, which may be written by name and qualified. -/
def typeDeclaration (tree : DeclTree) (id : TypeId) : Option DeclId :=
  tree.typeDeclarationTo (tree.types.size + 1) id

/-- The type behind references, found within a number of steps. -/
def nonReferenceTo (tree : DeclTree) : Nat → TypeId → TypeId
  | 0, id => id
  | depth + 1, id =>
      let type := tree.type id
      if type.kind.isReference then
        match type.pointee with
        | some pointee => tree.nonReferenceTo depth pointee
        | none => id
      else
        id

def nonReference (tree : DeclTree) (id : TypeId) : TypeId :=
  tree.nonReferenceTo (tree.types.size + 1) id

def isInFile (tree : DeclTree) (id : DeclId) (file : String) : Bool :=
  (tree.decl id).location.file.any (Path.same file)

end DeclTree

end Bindery
