import Bindery.Tree.Kind

/-!
# Declaration trees

The declarations and types of one source unit, each in a list of its own and named by its
place there.
-/

set_option autoImplicit false

namespace Bindery

abbrev DeclId := Nat

abbrev TypeId := Nat

/-- Where a declaration stands in the sources. -/
structure SourceLocation where
  file : Option String
  line : Nat
  column : Nat
  inSystemHeader : Bool
deriving Repr, DecidableEq

/-- A declaration.  `type` is the declared type, `resultType` that of a function's result,
`underlyingType` what a typedef stands for, `referenced` what a reference points at,
`specializedTemplate` the template behind an instantiation. -/
structure Decl where
  kind : DeclKind
  spelling : String
  displayName : String
  semanticParent : Option DeclId
  lexicalParent : Option DeclId
  children : List DeclId
  access : Access
  flags : List DeclFlag
  type : Option TypeId
  resultType : Option TypeId
  underlyingType : Option TypeId
  referenced : Option DeclId
  definition : Option DeclId
  specializedTemplate : Option DeclId
  location : SourceLocation
  extent : String
deriving Repr, DecidableEq

namespace Decl

/-- A declaration of which only kind and name are known. -/
def make (kind : DeclKind) (spelling : String) : Decl :=
  ⟨kind, spelling, spelling, none, none, [], .isPublic, [], none, none, none, none, none, none,
    ⟨none, 0, 0, false⟩, ""⟩

def has (decl : Decl) (flag : DeclFlag) : Bool :=
  decl.flags.contains flag

/-- The declaration with a property switched on or off. -/
def setFlag (decl : Decl) (flag : DeclFlag) (on : Bool) : Decl :=
  let others := decl.flags.filter (· != flag)
  { decl with flags := if on then flag :: others else others }

def anonymous (decl : Decl) : Bool :=
  decl.has .isAnonymous || decl.spelling.isEmpty

end Decl

/-- A type.  `spelling` leaves out the qualifiers; `pointee` is what a pointer or reference points
at, the element of an array and the type behind a written name; `canonical` is the canonical form
if that is another type. -/
structure CppType where
  kind : TypeKind
  spelling : String
  isConst : Bool
  isVolatile : Bool
  pointee : Option TypeId
  arraySize : Option Nat
  declaration : Option DeclId
  canonical : Option TypeId
  result : Option TypeId
  params : List TypeId
  isVariadic : Bool
deriving Repr, DecidableEq

namespace CppType

/-- A type of which only kind and spelling are known. -/
def make (kind : TypeKind) (spelling : String) : CppType :=
  ⟨kind, spelling, false, false, none, none, none, none, none, [], false⟩

/-- The spelling with the qualifiers in front. -/
def bareSpelling (type : CppType) : String :=
  (if type.isConst then "const " else "") ++ (if type.isVolatile then "volatile " else "")
    ++ type.spelling

end CppType

/-- The declarations and types of a source unit.  The first declaration is the root. -/
structure DeclTree where
  decls : Array Decl
  types : Array CppType
deriving Repr, DecidableEq

namespace DeclTree

def empty : DeclTree :=
  ⟨#[Decl.make .unitRoot ""], #[]⟩

def root : DeclId := 0

def decl (tree : DeclTree) (id : DeclId) : Decl :=
  tree.decls.getD id (Decl.make .other "")

def type (tree : DeclTree) (id : TypeId) : CppType :=
  tree.types.getD id (CppType.make .unexposed "")

def size (tree : DeclTree) : Nat :=
  tree.decls.size

def ids (tree : DeclTree) : List DeclId :=
  List.range tree.size

/-- Adds a declaration that is nobody's child. -/
def pushDecl (tree : DeclTree) (decl : Decl) : DeclTree × DeclId :=
  ({ tree with decls := tree.decls.push decl }, tree.size)

def pushType (tree : DeclTree) (type : CppType) : DeclTree × TypeId :=
  ({ tree with types := tree.types.push type }, tree.types.size)

def modifyDecl (tree : DeclTree) (id : DeclId) (change : Decl → Decl) : DeclTree :=
  { tree with decls := tree.decls.modify id change }

def modifyType (tree : DeclTree) (id : TypeId) (change : CppType → CppType) : DeclTree :=
  { tree with types := tree.types.modify id change }

/-- Adds a declaration as the last child of another. -/
def pushChild (tree : DeclTree) (parent : DeclId) (decl : Decl) : DeclTree × DeclId :=
  let (tree, id) :=
    tree.pushDecl { decl with semanticParent := some parent, lexicalParent := some parent }
  (tree.modifyDecl parent fun decl => { decl with children := decl.children ++ [id] }, id)

end DeclTree

/-- A source unit: the path of its file and its declarations. -/
structure SourceUnit where
  path : String
  tree : DeclTree
deriving Repr, DecidableEq

end Bindery
