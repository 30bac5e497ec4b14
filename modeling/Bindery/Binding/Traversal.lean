import Bindery.Binding.Members

/-!
# Traversal of a unit

A unit is traversed from its root through namespaces, linkage specifications and classes.  Each
declaration that takes part gives its fragments; those that something inside it needed first stand
before them.
-/

set_option autoImplicit false

namespace Bindery

namespace UnitContext

/-- The opaque class for a nested class that is declared and nowhere defined. -/
def opaqueClass (context : UnitContext) (siblings : List DeclId) (id : DeclId) :
    Gen (Option OpaqueClass) := do
  let decl := context.tree.decl id
  if !decl.kind.isRecord || decl.has .isDefinition || decl.definition.isSome
      || decl.access != .isPublic || decl.anonymous then
    return none
  else if ← context.skipped id then
    return none
  else
    let definedBeside := siblings.any fun other =>
      (context.tree.decl other).has .isDefinition
        && (context.tree.decl other).spelling == decl.spelling
    let cppType := context.tree.qualifiedName id
    let identifier := Name.classIdentifier cppType
    if definedBeside then
      return none
    else if ← Gen.register identifier cppType then
      return some ⟨identifier, context.options.namer.className decl.spelling cppType, cppType⟩
    else
      return none

/-- The nested classes of a class that are declared and nowhere defined. -/
def opaqueClasses (context : UnitContext) (id : DeclId) : Gen (List OpaqueClass) := do
  let children := context.tree.children id
  return (← children.mapM (context.opaqueClass children)).reduceOption

/-- A parameter of a class template as the builder declares it. -/
def templateParameter (context : UnitContext) (id : DeclId) : String :=
  let decl := context.tree.decl id
  match decl.kind with
  | .nonTypeParameter => (decl.type.map context.speller.spell).getD "int" ++ " " ++ decl.spelling
  | .templateParameter => "template<typename...> class " ++ decl.spelling
  | _ => "typename " ++ decl.spelling

/-- Makes the builder of a class template that has members. -/
def visitClassTemplate (context : UnitContext) (id : DeclId) : Gen Unit := do
  if ← context.skipped id then
    return ()
  else if ← context.exported id then
    let qualified := context.tree.qualifiedName id
    let cppType := context.tree.qualifiedDisplayName id
    let (members, aliases) ← context.classMembers id cppType true
    if !members.isEmpty then
      let params := (context.tree.templateParameters id).map context.templateParameter
      Gen.change (·.addBuilder qualified
        ⟨Name.builder qualified, params, cppType, members, aliases⟩)

/-- The values of an enum: constant names and C++ names, the latter in the given scope. -/
def enumValues (context : UnitContext) (id : DeclId) (scope : String) :
    List (String × String) :=
  (context.tree.childrenOfKind (· == .enumConstant) id).map fun value =>
    let spelling := (context.tree.decl value).spelling
    (Name.constant spelling, if scope.isEmpty then spelling else scope ++ "::" ++ spelling)

/-- The fragments of an enum; the values of one without a name belong to what is around it. -/
def visitEnum (context : UnitContext) (id : DeclId) (parent : Parent) : Gen (List Fragment) := do
  let decl := context.tree.decl id
  if decl.anonymous then
    let scope := ((context.tree.semanticParent id).map context.tree.qualifiedName).getD ""
    return (context.enumValues id scope).map fun (name, value) => .constant parent name value
  else if ← context.skipped id then
    return []
  else
    let cppType := context.tree.qualifiedName id
    let identifier := Name.classIdentifier cppType
    if ← Gen.register identifier cppType then
      return [.enum identifier (context.options.namer.className decl.spelling cppType) cppType
        parent (context.enumValues id cppType)]
    else
      return []

/-- Lets a free operator wait for its class. -/
def visitOperator (context : UnitContext) (id : DeclId) : Gen Unit := do
  if let some operator := context.speller.freeOperator? id then
    if !(← context.mentionsSkipped id [operator.target]) then
      Gen.change (·.pushOperator operator)

def visitFunction (context : UnitContext) (id : DeclId) (parent : Parent) :
    Gen (List Fragment) := do
  if ← context.skipped id then
    return []
  else if !(← context.exported id) then
    return []
  else if Text.startsWith "operator" (context.tree.decl id).spelling then
    context.visitOperator id
    return []
  else
    match ← context.signature id false with
    | none => return []
    | some signature =>
        let qualified := context.tree.qualifiedName id
        return [.function parent
          ⟨context.options.namer.methodName (context.methodShape id) qualified, "&" ++ qualified,
            if context.overloaded id then some (context.speller.functionSignature id) else none,
            signature.args, context.returnsBuffer id⟩]

/-- The fragment of a variable: a constant if it cannot change. -/
def visitVariable (context : UnitContext) (id : DeclId) (parent : Parent) :
    Gen (List Fragment) := do
  if ← context.skipped id then
    return []
  else
    let decl := context.tree.decl id
    match decl.type with
    | none => return []
    | some type =>
        if ← context.mentionsSkipped id [context.speller.spell type] then
          return []
        else
          let data := context.tree.type type
          let qualified := context.tree.qualifiedName id
          if data.isConst then
            return [.constant parent (context.options.namer.constantName decl.spelling qualified)
              qualified]
          else
            return [.variable_ parent
              (context.options.namer.attributeName decl.spelling qualified) ("&" ++ qualified)
              data.kind.isArray]

/-- The class template that a typedef names an instantiation of, the spelling of the instantiation
and its arguments. -/
def namedInstantiation? (context : UnitContext) (id : DeclId) :
    Option (DeclId × String × List String) := do
  let tree := context.tree
  let underlying ← (tree.decl id).underlyingType
  let template ← (tree.decl (← tree.typeDeclaration underlying)).specializedTemplate
  if tree.isStd template then none
  let cppType := context.speller.spell underlying
  let (_, args, _) ← Text.splitTemplate cppType
  some (template, cppType, Text.templateArgs args)

/-- The fragment of a typedef that names an instantiation. -/
def visitTypedef (context : UnitContext) (id : DeclId) (parent : Parent) :
    Gen (List Fragment) := do
  if context.tree.inClassTemplate id then
    return []
  else if ← context.skipped id then
    return []
  else
    match context.namedInstantiation? id with
    | none => return []
    | some (template, cppType, args) =>
        if ← context.skipped template then
          return []
        else if ← context.mentionsSkipped id [cppType] then
          return []
        else
          let qualified := context.tree.qualifiedName id
          let identifier := Name.classIdentifier qualified
          if ((← Gen.unit).identifierFor? cppType).isSome then
            return []
          else if ← Gen.register identifier cppType then
            let base ← context.declaredBase (context.speller.instantiateBase? template args)
            let builder ← context.builderCall template args
            return [.instantiation identifier
              (context.options.namer.className (context.tree.decl id).spelling qualified) cppType
              base parent builder]
          else
            return []

/-- The fragments of some declarations with a common parent, those that waited before the ones
that needed them. -/
def visitAll (context : UnitContext) (visit : DeclId → Parent → Gen (List Fragment))
    (ids : List DeclId) (parent : Parent) : Gen (List Fragment) := do
  let pieces ← (ids.filter context.accepts).mapM fun id => do
    let produced ← visit id parent
    return (← Gen.takePending) ++ produced
  return pieces.flatten

/-- The fragments of a namespace.  What an inline namespace holds belongs to the scope around it. -/
def visitNamespace (context : UnitContext) (visit : DeclId → Parent → Gen (List Fragment))
    (id : DeclId) (parent : Parent) : Gen (List Fragment) := do
  let decl := context.tree.decl id
  let children := context.tree.children id
  if decl.anonymous then
    return []
  else if decl.has .isInlineNamespace then
    context.visitAll visit children parent
  else if ← context.skipped id then
    return []
  else
    let opened ← context.openNamespace id parent
    let inside ← context.visitAll visit children (.module_ (context.moduleIdentifier id))
    return opened.toList ++ inside

/-- The children of a class that have fragments of their own: classes and class templates, then
enums, then typedefs. -/
def nestedDeclarations (tree : DeclTree) (id : DeclId) : List DeclId :=
  let children := tree.children id
  let isNested (child : DeclId) : Bool :=
    (tree.decl child).kind.isRecord || (tree.decl child).kind == .classTemplate
  let isEnum (child : DeclId) : Bool :=
    (tree.decl child).kind == .enumDecl && !(tree.decl child).anonymous
  let isTypeName (child : DeclId) : Bool := (tree.decl child).kind.isTypedef
  children.filter isNested ++ children.filter isEnum ++ children.filter isTypeName

/-- The fragments of a class.  Of those that waited for it, the first that is attached to the class
and all later ones follow it. -/
def visitClass (context : UnitContext) (visit : DeclId → Parent → Gen (List Fragment))
    (id : DeclId) (parent : Parent) : Gen (List Fragment) := do
  let decl := context.tree.decl id
  if decl.anonymous then
    return []
  else if ← context.skipped id then
    return []
  else if !(← context.exported id) then
    return []
  else
    let cppType := context.tree.qualifiedName id
    let identifier := Name.classIdentifier cppType
    if ← Gen.register identifier cppType then
      let base ← context.declaredBase (context.speller.resolveBase? id [] [])
      let opaqueClasses ← context.opaqueClasses id
      let (members, aliases) ← context.classMembers id cppType false
      let inside := Parent.class_ identifier
      let (before, behind) := (← Gen.takePending).span (·.parent != inside)
      let nested ← context.visitAll visit (nestedDeclarations context.tree id) inside
      let name := context.options.namer.className decl.spelling cppType
      return before
        ++ .class_ ⟨identifier, name, cppType, base, parent, opaqueClasses, members, aliases⟩
        :: behind ++ nested
    else
      return []

/-- The fragments of a declaration, down to a depth. -/
def visitTo (context : UnitContext) : Nat → DeclId → Parent → Gen (List Fragment)
  | 0, _, _ => failure
  | depth + 1, id, parent =>
      match (context.tree.decl id).kind with
      | .namespaceDecl => context.visitNamespace (context.visitTo depth) id parent
      | .linkageSpec =>
          context.visitAll (context.visitTo depth) (context.tree.children id) parent
      | .classDecl | .structDecl => context.visitClass (context.visitTo depth) id parent
      | .classTemplate => do
          context.visitClassTemplate id
          return []
      | .enumDecl => context.visitEnum id parent
      | .functionDecl => context.visitFunction id parent
      | .varDecl => context.visitVariable id parent
      | .typedefDecl | .typeAlias => context.visitTypedef id parent
      | _ => return []

/-- The fragments of the unit.  No declaration is deeper in a tree than the tree has
declarations. -/
def visitUnit (context : UnitContext) : Gen (List Fragment) :=
  context.visitAll (context.visitTo context.tree.size) (context.tree.children DeclTree.root) .global

end UnitContext

end Bindery
