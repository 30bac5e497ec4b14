import Bindery.Spelling.Qualify

/-!
# Spellings of types

The spelling of a type for code outside all namespaces: names are qualified, and a typedef keeps
its name.
-/

set_option autoImplicit false

namespace Bindery

/-- Spells the types of a tree by its registries. -/
structure Speller where
  tree : DeclTree
  registries : TypeRegistries
deriving Repr, DecidableEq

namespace Speller

def ofTree (tree : DeclTree) : Speller :=
  ⟨tree, TypeRegistries.ofTree tree⟩

/-- The spelling of a typedef that is a member of a class template. -/
def memberTypedef (speller : Speller) (id : DeclId) : String :=
  let name := (speller.tree.decl id).spelling
  match speller.tree.semanticParent id with
  | some parent => "typename " ++ speller.tree.qualifiedDisplayName parent ++ "::" ++ name
  | none => name

/-- The spelling of a type that a class template stands behind. -/
def spellTemplate (speller : Speller) (spelling : String) (id : DeclId) : String :=
  let qualified := speller.tree.qualifiedName id
  let full :=
    if Text.containsText "::" spelling then
      spelling
    else
      match Text.splitTemplate spelling with
      | some (_, args, rest) => qualified ++ "<" ++ args ++ ">" ++ rest
      | none => qualified
  speller.registries.qualifyTypenames full

/-- The spelling of a type that a typedef stands behind. -/
def spellTypedef (speller : Speller) (spelling : String) (id : DeclId) : String :=
  if speller.tree.inClassTemplate id then
    speller.memberTypedef id
  else if (Text.splitTemplate spelling).isSome then
    speller.registries.qualifyTemplate spelling
  else
    let qualified := speller.tree.qualifiedName id
    if Text.endsWith spelling qualified then qualified else spelling

/-- The spelling of a type that a class stands behind. -/
def spellRecord (speller : Speller) (type : TypeId) (id : DeclId) : String :=
  let tree := speller.tree
  let prefixed := Spelling.prefixScope (tree.type type).spelling (tree.qualifiedName id)
  let canonical := (tree.type (tree.canonical type)).spelling
  speller.registries.qualifyNames (Spelling.withCanonicalArgs prefixed canonical)

/-- The spelling of a type that is reached through a name, without its qualifiers. -/
def spellNamed (speller : Speller) (type : TypeId) : String :=
  let spelling := (speller.tree.type type).spelling
  match speller.tree.typeDeclaration type with
  | none => spelling
  | some id =>
      match (speller.tree.decl id).kind with
      | .classTemplate | .partialSpecialization => speller.spellTemplate spelling id
      | .typedefDecl | .typeAlias => speller.spellTypedef spelling id
      | .enumDecl => speller.tree.qualifiedName id
      | .classDecl | .structDecl | .unionDecl => speller.spellRecord type id
      | _ => spelling

/-- The function type that a pointer points at, directly or by another name. -/
def functionBehind? (tree : DeclTree) (pointee : TypeId) : Option CppType :=
  let isFunction (type : CppType) : Bool := type.kind == .functionProto
  let type := tree.type pointee
  if isFunction type then some type
  else (type.canonical.map tree.type).filter isFunction

/-- The spelling of a type, its parts followed for a number of steps. -/
def spellTo (speller : Speller) : Nat → TypeId → String
  | 0, id => (speller.tree.type id).bareSpelling
  | depth + 1, id =>
      let type := speller.tree.type id
      match type.kind with
      | .lvalueRef =>
          match type.pointee with
          | some pointee => speller.spellTo depth pointee ++ "&"
          | none => type.bareSpelling
      | .rvalueRef =>
          match type.pointee with
          | some pointee => speller.spellTo depth pointee ++ "&&"
          | none => type.bareSpelling
      | .pointer =>
          match type.pointee with
          | none => type.bareSpelling
          | some pointee =>
              let core :=
                match functionBehind? speller.tree pointee with
                | some function =>
                    let result := (function.result.map (speller.spellTo depth)).getD "void"
                    let params := function.params.map (speller.spellTo depth)
                    let params := if function.isVariadic then params ++ ["..."] else params
                    result ++ " (*)(" ++ Text.joinArgs params ++ ")"
                | none => speller.spellTo depth pointee ++ "*"
              if type.isConst then core ++ " const" else core
      | .constantArray | .incompleteArray =>
          match type.pointee with
          | none => type.bareSpelling
          | some element =>
              let size := (type.arraySize.map toString).getD ""
              Spelling.withConst type.isConst
                (speller.spellTo depth element ++ "[" ++ size ++ "]")
      | .elaborated | .typedefName | .record | .enum | .unexposed =>
          Spelling.withConst type.isConst (speller.spellNamed id)
      | .builtin | .functionProto | .templateParameter | .dependent => type.bareSpelling

def spell (speller : Speller) (id : TypeId) : String :=
  speller.spellTo (speller.tree.types.size + 1) id

/-- The spelling of a value of a type: without references and without `const` in front. -/
def spellValue (speller : Speller) (id : TypeId) : String :=
  let spelled := speller.spell (speller.tree.nonReference id)
  (Text.dropPrefix? "const " spelled).getD spelled

def parameterTypes (speller : Speller) (function : DeclId) : List String :=
  (speller.tree.parameters function).map fun param =>
    ((speller.tree.decl param).type.map speller.spell).getD "void"

def resultType (speller : Speller) (function : DeclId) : String :=
  ((speller.tree.decl function).resultType.map speller.spell).getD "void"

/-- The type of a pointer to a function or static method. -/
def functionSignature (speller : Speller) (function : DeclId) : String :=
  speller.resultType function ++ "(*)(" ++ Text.joinArgs (speller.parameterTypes function) ++ ")"

/-- The type of a pointer to a method of the class spelled `classType`. -/
def methodSignature (speller : Speller) (method : DeclId) (classType : String) : String :=
  speller.resultType method ++ "(" ++ classType ++ "::*)("
    ++ Text.joinArgs (speller.parameterTypes method) ++ ")"
    ++ (if (speller.tree.decl method).has .isConst then " const" else "")

end Speller

end Bindery
