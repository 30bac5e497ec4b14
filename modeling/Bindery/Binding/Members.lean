import Bindery.Binding.Instantiation
import Bindery.Binding.Iterators
import Bindery.Spelling.Default

/-!
# Members of classes

The Ruby members of a class or class template, in the order of its declarations: constructors,
methods, conversions, attributes and constants, and last the iterators.
-/

set_option autoImplicit false

namespace Bindery

/-- Why a function cannot be bound. -/
inductive Refusal where
  | variadic
  | rvalueParameter
  | untypedParameter
deriving Repr, DecidableEq

/-- The event that tells of a refusal; a parameter without a type goes unreported. -/
def Refusal.event? (symbol : String) : Refusal → Option Event
  | variadic => some (.variadic symbol)
  | rvalueParameter => some (.rvalueParameter symbol)
  | untypedParameter => none

/-- The parameters of a function that can be bound: their spelled types and their arguments, and
the types themselves followed by that of the result. -/
structure Signature where
  types : List String
  args : List Argument
  typeIds : List TypeId
deriving Repr, DecidableEq

namespace UnitContext

/-- The argument for a parameter; one without a name is named after its place. -/
def argument (context : UnitContext) (place : Nat) (param : DeclId) (type : TypeId) : Argument :=
  let name := (context.tree.decl param).spelling
  ⟨if name.isEmpty then "arg_" ++ toString place else Name.snakeCase name,
    (context.tree.defaultValue? param).map fun expression =>
      ⟨context.speller.spellValue type, expression⟩⟩

/-- The type of a parameter and its argument. -/
def readParameter (context : UnitContext) (param : DeclId) (place : Nat) :
    Except Refusal (TypeId × Argument) :=
  match (context.tree.decl param).type with
  | none => .error .untypedParameter
  | some type =>
      if (context.tree.type type).kind == .rvalueRef then .error .rvalueParameter
      else .ok (type, context.argument place param type)

/-- The signature of a function, as far as its declaration admits one. -/
def readSignature (context : UnitContext) (function : DeclId) : Except Refusal Signature := do
  let decl := context.tree.decl function
  if decl.has .isVariadic then throw .variadic
  let params ← (context.tree.parameters function).zipIdx.mapM fun (param, place) =>
    context.readParameter param place
  let types := params.map (·.1)
  return ⟨types.map context.speller.spell, params.map (·.2), types ++ decl.resultType.toList⟩

/-- The signature of a function that can be bound.  Outside templates the instantiations in it are
bound first. -/
def signature (context : UnitContext) (function : DeclId) (inTemplate : Bool) :
    Gen (Option Signature) := do
  match context.readSignature function with
  | .error refusal =>
      if let some event := refusal.event? (context.tree.qualifiedName function) then
        Gen.report event
      return none
  | .ok signature =>
      let result := (context.tree.decl function).resultType.toList
      if ← context.mentionsSkipped function
          (signature.types ++ result.map context.speller.spell) then
        return none
      else
        if !inTemplate then
          signature.typeIds.forM context.ensureInstantiation
        return some signature

/-- Whether a function returns a pointer to numbers. -/
def returnsBuffer (context : UnitContext) (function : DeclId) : Bool :=
  let tree := context.tree
  let canonicalType (id : TypeId) : CppType := tree.type (tree.canonical id)
  ((tree.decl function).resultType.map canonicalType).any fun result =>
    result.kind == .pointer && (result.pointee.map canonicalType).any fun pointee =>
      pointee.kind == .builtin && pointee.spelling != "char" && pointee.spelling != "void"

/-- How a function looks from outside, for its conventional name. -/
def methodShape (context : UnitContext) (function : DeclId) : Name.MethodShape :=
  let decl := context.tree.decl function
  let result := decl.resultType.map context.tree.canonicalSpelling
  ⟨decl.spelling, (context.tree.parameters function).length, result == some "bool",
    result.getD "void" == "void"⟩

/-- The constructor of a class; those that move are left out. -/
def constructorMember (context : UnitContext) (id : DeclId) (inTemplate : Bool) :
    Gen (List Member) := do
  if (context.tree.decl id).has .isMoveConstructor then
    return []
  else
    let signature ← context.signature id inTemplate
    return (signature.map fun signature =>
      Member.constructor signature.types signature.args).toList

/-- The Ruby name of a method; some operators have none. -/
def methodName? (context : UnitContext) (id : DeclId) : Option String :=
  let spelling := (context.tree.decl id).spelling
  if Text.startsWith "operator" spelling then do
    let symbol ← operatorSymbol? spelling
    Name.operator? symbol ((context.tree.parameters id).length + 1)
  else
    some (context.options.namer.methodName (context.methodShape id)
      (context.tree.qualifiedName id))

/-- The setter beside an index operator that returns a reference to change. -/
def indexSetter? (context : UnitContext) (id : DeclId) (classType : String)
    (params : List String) : Option Member := do
  let tree := context.tree
  let decl := tree.decl id
  let result := tree.type (← decl.resultType)
  if result.kind != .lvalueRef || decl.has .isConst then none
  let element ← result.pointee
  if (tree.type element).isConst then none
  let index ← params.head?
  some (.lambda ⟨"[]=",
    [(classType ++ "&", "self"), (index, "index"), (context.speller.spell element, "value")],
    "void", "self[index] = value;"⟩)

/-- The signature that tells a method from the others of its name, if there are others. -/
def explicitSignature? (context : UnitContext) (id : DeclId) (classType : String) :
    Option String :=
  if !context.overloaded id then none
  else if (context.tree.decl id).has .isStatic then some (context.speller.functionSignature id)
  else some (context.speller.methodSignature id classType)

/-- The members that a method gives, whose name and signature are known. -/
def methodMembers (context : UnitContext) (id : DeclId) (classType name : String)
    (signature : Signature) : List Member :=
  let decl := context.tree.decl id
  let callable : Callable :=
    ⟨name, "&" ++ classType ++ "::" ++ decl.spelling, context.explicitSignature? id classType,
      signature.args, context.returnsBuffer id⟩
  let member : Member :=
    if decl.has .isStatic then .singletonFunction callable else .method callable
  let setter := if name == "[]" then context.indexSetter? id classType signature.types else none
  member :: setter.toList

def methodMember (context : UnitContext) (id : DeclId) (classType : String)
    (inTemplate : Bool) : Gen (List Member) := do
  if ← context.skipped id then
    return []
  else
    match context.methodName? id with
    | none => return []
    | some name =>
        match ← context.signature id inTemplate with
        | none => return []
        | some signature => return context.methodMembers id classType name signature

def conversionMember (context : UnitContext) (id : DeclId) (classType : String)
    (inTemplate : Bool) : Gen (List Member) := do
  if ← context.skipped id then
    return []
  else
    match (context.tree.decl id).resultType with
    | none => return []
    | some result =>
        let target := context.speller.spell result
        let signature ← context.signature id inTemplate
        return (signature.map fun signature =>
          Member.method ⟨Name.conversion target, "&" ++ classType ++ "::operator " ++ target,
            none, signature.args, false⟩).toList

def fieldMember (context : UnitContext) (id : DeclId) (classType : String) :
    Gen (List Member) := do
  let decl := context.tree.decl id
  if decl.anonymous then
    return []
  else if ← context.skipped id then
    return []
  else
    match decl.type with
    | none => return []
    | some type =>
        if ← context.mentionsSkipped id [context.speller.spell type] then
          return []
        else
          let data := context.tree.type type
          return [.attribute
            (context.options.namer.attributeName decl.spelling (context.tree.qualifiedName id))
            ("&" ++ classType ++ "::" ++ decl.spelling) (data.kind.isArray || data.isConst)]

/-- The constant or attribute for a static data member. -/
def staticMember (context : UnitContext) (id : DeclId) (classType : String) :
    Gen (List Member) := do
  if ← context.skipped id then
    return []
  else
    let decl := context.tree.decl id
    let qualified := context.tree.qualifiedName id
    let cppMember := classType ++ "::" ++ decl.spelling
    match decl.type.map context.tree.type with
    | none => return []
    | some data =>
        if data.isConst then
          return [.constant (context.options.namer.constantName decl.spelling qualified)
            cppMember]
        else
          return [.singletonAttribute (context.options.namer.attributeName decl.spelling qualified)
            ("&" ++ cppMember) data.kind.isArray]

/-- The constants for the values of an enum without a name. -/
def enumConstants (context : UnitContext) (id : DeclId) (classType : String) : List Member :=
  (context.tree.children id).map fun value =>
    let spelling := (context.tree.decl value).spelling
    .constant (Name.constant spelling) (classType ++ "::" ++ spelling)

def childMembers (context : UnitContext) (classType : String) (isAbstract inTemplate : Bool)
    (child : DeclId) : Gen (List Member) := do
  let decl := context.tree.decl child
  if !context.accepts child then
    return []
  else
    match decl.kind with
    | .constructor =>
        if isAbstract then return [] else context.constructorMember child inTemplate
    | .method =>
        if isIteratorMethod decl.spelling then return []
        else context.methodMember child classType inTemplate
    | .conversion => context.conversionMember child classType inTemplate
    | .fieldDecl => context.fieldMember child classType
    | .varDecl => context.staticMember child classType
    | .enumDecl => return if decl.anonymous then context.enumConstants child classType else []
    | _ => return []

def implicitConstructor (context : UnitContext) (id : DeclId) : List Member :=
  let declared :=
    (context.tree.children id).any fun child => (context.tree.decl child).kind == .constructor
  if declared || (context.tree.decl id).has .isAbstract then [] else [.constructor [] []]

/-- The members of a class or class template and the second names of its methods. -/
def classMembers (context : UnitContext) (id : DeclId) (classType : String)
    (inTemplate : Bool) : Gen (List Member × List Alias) := do
  let isAbstract := (context.tree.decl id).has .isAbstract
  let declared ←
    (context.tree.children id).mapM (context.childMembers classType isAbstract inTemplate)
  let iterators := context.speller.iteratorBindings id classType
  for traits in iterators.begins.filterMap (context.speller.inferTraits? · inTemplate) do
    Gen.change (·.addTraits traits)
  return (context.implicitConstructor id ++ declared.flatten ++ iterators.members,
    iterators.aliases)

end UnitContext

end Bindery
