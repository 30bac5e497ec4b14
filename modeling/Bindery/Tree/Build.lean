import Bindery.Tree.Query

/-!
# Building declaration trees

A tree is built step by step: each step adds a declaration or a type, or changes how later ones
are stamped.  The steps give the shapes that a C++ front-end gives, canonical types included.
-/

set_option autoImplicit false

namespace Bindery

/-- A tree under construction.  Declarations are stamped with the current file and a growing line
number; builtin types and the types of classes and enums are made once. -/
structure TreeBuilder where
  tree : DeclTree
  unitPath : String
  file : String
  system : Bool
  line : Nat
  builtins : List (String × TypeId)
  records : List (DeclId × TypeId)
deriving Repr, DecidableEq

/-- An operation on a tree under construction. -/
abbrev Build := StateM TreeBuilder

namespace TreeBuilder

/-- The empty tree of the unit at `path`. -/
def start (path : String) : TreeBuilder :=
  ⟨DeclTree.empty, path, path, false, 0, [], []⟩

def unit (builder : TreeBuilder) : SourceUnit :=
  ⟨builder.unitPath, builder.tree⟩

def decl (id : DeclId) : Build Decl := do
  return (← get).tree.decl id

def type (id : TypeId) : Build CppType := do
  return (← get).tree.type id

def modifyDecl (id : DeclId) (change : Decl → Decl) : Build Unit :=
  modify fun builder => { builder with tree := builder.tree.modifyDecl id change }

/-- Switches a property of a declaration on or off. -/
def setFlag (id : DeclId) (flag : DeclFlag) (on : Bool) : Build Unit :=
  modifyDecl id fun decl => decl.setFlag flag on

def setType (id : DeclId) (type : TypeId) : Build Unit :=
  modifyDecl id fun decl => { decl with type := some type }

/-- Gives a function a result type. -/
def setResult (id : DeclId) (type : TypeId) : Build Unit :=
  modifyDecl id fun decl => { decl with resultType := some type }

/-- Gives a typedef or an enum its underlying type. -/
def setUnderlying (id : DeclId) (type : TypeId) : Build Unit :=
  modifyDecl id fun decl => { decl with underlyingType := some type }

def setReferenced (id target : DeclId) : Build Unit :=
  modifyDecl id fun decl => { decl with referenced := some target }

def pushType (type : CppType) : Build TypeId :=
  modifyGet fun builder =>
    let (tree, id) := builder.tree.pushType type
    (id, { builder with tree })

/-- The stamp for the next declaration. -/
def location : Build SourceLocation :=
  modifyGet fun builder =>
    (⟨some builder.file, builder.line + 1, 1, builder.system⟩,
      { builder with line := builder.line + 1 })

/-- Adds a declaration of any kind below another. -/
def add (parent : DeclId) (kind : DeclKind) (name : String) : Build DeclId := do
  let location ← location
  let decl := { Decl.make kind name with location }
  let decl := decl.setFlag .isAnonymous name.isEmpty
  let decl := decl.setFlag .isDefinition kind.definesItself
  modifyGet fun builder =>
    let (tree, id) := builder.tree.pushChild parent decl
    (id, { builder with tree })

/-! ## Scopes -/

def inlineNamespace (parent : DeclId) (name : String) : Build DeclId := do
  let id ← add parent .namespaceDecl name
  setFlag id .isInlineNamespace true
  return id

def linkageSpec (parent : DeclId) : Build DeclId := do
  let id ← add parent .linkageSpec ""
  setFlag id .isAnonymous false
  return id

/-- Adds a class without a body. -/
def forwardClass (parent : DeclId) (name : String) : Build DeclId := do
  let id ← add parent .classDecl name
  setFlag id .isDefinition false
  return id

def templateDisplay (name : String) : List String → String
  | [] => name
  | params => name ++ "<" ++ ", ".intercalate params ++ ">"

/-- Brings the display name of a template up to date. -/
def refreshDisplay (template : DeclId) : Build Unit := do
  let names := (← get).tree.parameterNames template
  modifyDecl template fun decl =>
    { decl with displayName := templateDisplay decl.spelling names }

def typeParam (template : DeclId) (name : String) : Build DeclId := do
  let id ← add template .typeParameter name
  refreshDisplay template
  return id

/-- Adds a parameter that stands for a value to a template. -/
def nonTypeParam (template : DeclId) (name : String) (type : TypeId) : Build DeclId := do
  let id ← add template .nonTypeParameter name
  setType id type
  refreshDisplay template
  return id

/-- Adds a class template with type parameters. -/
def classTemplate (parent : DeclId) (name : String) (params : List String) : Build DeclId := do
  let id ← add parent .classTemplate name
  params.forM fun param => do
    let _ ← typeParam id param
  refreshDisplay id
  return id

/-- Adds a partial specialization with the given arguments. -/
def partialSpecialization (parent : DeclId) (name args : String) : Build DeclId := do
  let id ← add parent .partialSpecialization name
  modifyDecl id fun decl => { decl with displayName := name ++ "<" ++ args ++ ">" }
  return id

/-- Adds an instantiation of a template.  It is nobody's child; it knows its scope and its
template. -/
def specialization (template : DeclId) (args : String) : Build DeclId := do
  let source ← decl template
  let decl :=
    { Decl.make .classDecl source.spelling with
      displayName := source.spelling ++ "<" ++ args ++ ">"
      semanticParent := source.semanticParent
      lexicalParent := source.semanticParent
      specializedTemplate := some template
      location := source.location
      flags := [.isDefinition] }
  modifyGet fun builder =>
    let (tree, id) := builder.tree.pushDecl decl
    (id, { builder with tree })

/-! ## Types -/

def builtin (name : String) : Build TypeId := do
  match (← get).builtins.lookup name with
  | some id => return id
  | none =>
      let id ← pushType (CppType.make .builtin name)
      modify fun builder => { builder with builtins := (name, id) :: builder.builtins }
      return id

/-- The spelling of a pointer or reference to a type. -/
def derivedSpelling (kind : TypeKind) (inner : CppType) : String :=
  match kind with
  | .pointer => inner.bareSpelling ++ " *"
  | .lvalueRef => inner.bareSpelling ++ " &"
  | .rvalueRef => inner.bareSpelling ++ " &&"
  | _ => inner.bareSpelling

/-- A type around another.  If the inner type has a canonical form, so has the outer one. -/
def wrap (kind : TypeKind) (inner : TypeId) (spelling : String) : Build TypeId := do
  let type := { CppType.make kind spelling with pointee := some inner }
  match (← TreeBuilder.type inner).canonical with
  | none => pushType type
  | some core =>
      let spelling := derivedSpelling kind (← TreeBuilder.type core)
      let canonical ← pushType { CppType.make kind spelling with pointee := some core }
      pushType { type with canonical := some canonical }

/-- A pointer or reference to a type. -/
def derived (kind : TypeKind) (inner : TypeId) : Build TypeId := do
  wrap kind inner (derivedSpelling kind (← type inner))

/-- A type made constant, and its canonical form with it. -/
def const (id : TypeId) : Build TypeId := do
  let type := { ← type id with isConst := true }
  match type.canonical with
  | none => pushType type
  | some core =>
      let canonical ← pushType { ← TreeBuilder.type core with isConst := true }
      pushType { type with canonical := some canonical }

def constRef (id : TypeId) : Build TypeId := do
  derived .lvalueRef (← const id)

def array (element : TypeId) (size : Nat) : Build TypeId := do
  let spelling := (← type element).bareSpelling ++ "[" ++ toString size ++ "]"
  let id ← wrap .constantArray element spelling
  modify fun builder =>
    { builder with
      tree := builder.tree.modifyType id fun type => { type with arraySize := some size } }
  return id

/-- The type of a class or an enum, made once. -/
def once (id : DeclId) (type : CppType) : Build TypeId := do
  match (← get).records.lookup id with
  | some found => return found
  | none =>
      let made ← pushType { type with declaration := some id }
      modify fun builder => { builder with records := (id, made) :: builder.records }
      return made

/-- The template arguments in the display name of an instantiation. -/
def displayArgs (decl : Decl) : String :=
  if decl.specializedTemplate.isSome then
    String.ofList (decl.displayName.toList.dropWhile (· != '<'))
  else
    ""

/-- The type of a class under its qualified name. -/
def record (id : DeclId) : Build TypeId := do
  let spelling := (← get).tree.qualifiedName id ++ displayArgs (← decl id)
  once id (CppType.make .record spelling)

/-- The type of an enum under its qualified name. -/
def enumType (id : DeclId) : Build TypeId := do
  once id (CppType.make .enum ((← get).tree.qualifiedName id))

def elaborated (named : TypeId) (declaration : DeclId) (written : String) : Build TypeId := do
  let canonical := (← get).tree.canonical named
  pushType
    { CppType.make .elaborated written with
      pointee := some named
      declaration := some declaration
      canonical := some canonical }

/-- The type of a class as the source writes it. -/
def recordAs (id : DeclId) (written : String) : Build TypeId := do
  elaborated (← record id) id written

/-- The type of a class written by its simple name, with its arguments if it has some. -/
def named (id : DeclId) : Build TypeId := do
  let decl ← decl id
  recordAs id (if decl.specializedTemplate.isSome then decl.displayName else decl.spelling)

/-- The type of an enum written by its simple name. -/
def namedEnum (id : DeclId) : Build TypeId := do
  elaborated (← enumType id) id (← decl id).spelling

/-- The use of a typedef as the source writes it. -/
def typedefTypeAs (id : DeclId) (written : String) : Build TypeId := do
  let tree := (← get).tree
  let named ← pushType
    { CppType.make .typedefName (tree.qualifiedName id) with
      declaration := some id
      canonical := (tree.decl id).underlyingType.map tree.canonical }
  elaborated named id written

/-- The use of a typedef by its simple name. -/
def typedefType (id : DeclId) : Build TypeId := do
  typedefTypeAs id (← decl id).spelling

def templateParamType (id : DeclId) : Build TypeId := do
  pushType
    { CppType.make .templateParameter (← decl id).spelling with declaration := some id }

def functionProto (result : TypeId) (params : List TypeId) : Build TypeId := do
  let args ← params.mapM fun param => do return (← type param).bareSpelling
  let spelling := (← type result).bareSpelling ++ " (" ++ ", ".intercalate args ++ ")"
  pushType { CppType.make .functionProto spelling with result := some result, params }

/-- The spelling of a pointer to a function, made from the spelling of the function's type. -/
def pointerSpelling : List Char → List Char
  | [] => []
  | ' ' :: '(' :: rest => " (*)(".toList ++ rest
  | c :: rest => c :: pointerSpelling rest

def functionPointer (result : TypeId) (params : List TypeId) : Build TypeId := do
  let proto ← functionProto result params
  let spelling := String.ofList (pointerSpelling (← type proto).spelling.toList)
  pushType { CppType.make .pointer spelling with pointee := some proto }

/-! ## References -/

/-- Adds a mention of a type. -/
def typeRef (parent target : DeclId) : Build DeclId := do
  let id ← add parent .typeRef ((← get).tree.qualifiedName target)
  setReferenced id target
  return id

/-- Adds a mention of a template. -/
def templateRef (parent target : DeclId) : Build DeclId := do
  let id ← add parent .templateRef (← decl target).spelling
  setReferenced id target
  return id

/-- Adds a mention of a declaration in an expression. -/
def declRef (parent target : DeclId) : Build DeclId := do
  let id ← add parent .declRef (← decl target).spelling
  setReferenced id target
  return id

/-- Adds a base class. -/
def base (parent : DeclId) (type : TypeId) : Build DeclId := do
  let id ← add parent .baseSpecifier (← TreeBuilder.type type).bareSpelling
  setType id type
  match (← get).tree.typeDeclaration type with
  | none => return id
  | some target =>
      let _ ← typeRef id target
      return id

/-- Adds a base class that is an instantiation written inside a template. -/
def templateBase (parent template : DeclId) (args : String) : Build DeclId := do
  let spelling := (← decl template).spelling ++ "<" ++ args ++ ">"
  let type ← pushType { CppType.make .unexposed spelling with declaration := some template }
  let id ← add parent .baseSpecifier spelling
  setType id type
  let _ ← templateRef id template
  return id

/-! ## Enums, functions and data -/

def enumeration (parent : DeclId) (name : String) : Build DeclId := do
  let id ← add parent .enumDecl name
  setUnderlying id (← builtin "int")
  return id

/-- Adds an enum whose values are in its own scope. -/
def scopedEnumeration (parent : DeclId) (name : String) : Build DeclId := do
  let id ← enumeration parent name
  setFlag id .isScopedEnum true
  return id

/-- Adds a value to an enum. -/
def enumConstant (parent : DeclId) (name : String) : Build DeclId := do
  let id ← add parent .enumConstant name
  setType id (← enumType parent)
  return id

/-- Adds a function, method or function template. -/
def function (kind : DeclKind) (parent : DeclId) (name : String) (result : TypeId) :
    Build DeclId := do
  let id ← add parent kind name
  setResult id result
  return id

/-- Adds a constant or static method. -/
def methodWith (flag : DeclFlag) (parent : DeclId) (name : String) (result : TypeId) :
    Build DeclId := do
  let id ← function .method parent name result
  setFlag id flag true
  return id

def constructor (parent : DeclId) : Build DeclId := do
  let id ← add parent .constructor (← decl parent).spelling
  setResult id (← builtin "void")
  return id

def destructor (parent : DeclId) : Build DeclId := do
  add parent .destructor ("~" ++ (← decl parent).spelling)

def conversion (parent : DeclId) (result : TypeId) : Build DeclId := do
  let id ← add parent .conversion ("operator " ++ (← type result).bareSpelling)
  setResult id result
  setFlag id .isConst true
  return id

def param (parent : DeclId) (name : String) (type : TypeId) : Build DeclId := do
  let extent := (← TreeBuilder.type type).bareSpelling ++ " " ++ name
  let id ← add parent .paramDecl name
  modifyDecl id fun decl => { decl with type := some type, extent := Text.trim extent }
  return id

/-- Adds a parameter with a default value. -/
def paramWithDefault (parent : DeclId) (name : String) (type : TypeId) (text : String) :
    Build DeclId := do
  let id ← param parent name type
  modifyDecl id fun decl => { decl with extent := decl.extent ++ " = " ++ text }
  return id

def field (parent : DeclId) (name : String) (type : TypeId) : Build DeclId := do
  let id ← add parent .fieldDecl name
  setType id type
  return id

/-- Adds a variable; in a class it is a static member. -/
def var (parent : DeclId) (name : String) (type : TypeId) : Build DeclId := do
  let kind := (← decl parent).kind
  let id ← add parent .varDecl name
  setType id type
  setFlag id .isStatic (kind.isRecord || kind.isClassTemplate)
  return id

/-- Adds a typedef or an alias. -/
def newTypedef (kind : DeclKind) (parent : DeclId) (name : String) (underlying : TypeId) :
    Build DeclId := do
  let id ← add parent kind name
  setUnderlying id underlying
  return id

/-! ## Steps -/

/-- What a step makes. -/
inductive Product where
  | decl (id : DeclId)
  | type (id : TypeId)
  | nothing
deriving Repr, DecidableEq

/-- The steps by which trees are built. -/
inductive Step where
  | inFile (file : String)
  | inUnit
  | systemHeader (on : Bool)
  | setExtent (decl : DeclId) (text : String)
  | setAccess (decl : DeclId) (access : Access)
  | add (parent : DeclId) (kind : DeclKind) (name : String)
  | inlineNamespace (parent : DeclId) (name : String)
  | linkageSpec (parent : DeclId)
  | forwardClass (parent : DeclId) (name : String)
  | classTemplate (parent : DeclId) (name : String) (params : List String)
  | typeParam (parent : DeclId) (name : String)
  | nonTypeParam (parent : DeclId) (name : String) (type : TypeId)
  | partialSpecialization (parent : DeclId) (name args : String)
  | specialization (template : DeclId) (args : String)
  | enumeration (parent : DeclId) (name : String)
  | scopedEnumeration (parent : DeclId) (name : String)
  | enumConstant (parent : DeclId) (name : String)
  | macroDefinition (name : String)
  | function (kind : DeclKind) (parent : DeclId) (name : String) (result : TypeId)
  | constMethod (parent : DeclId) (name : String) (result : TypeId)
  | staticMethod (parent : DeclId) (name : String) (result : TypeId)
  | constructor (parent : DeclId)
  | destructor (parent : DeclId)
  | conversion (parent : DeclId) (result : TypeId)
  | param (parent : DeclId) (name : String) (type : TypeId)
  | paramWithDefault (parent : DeclId) (name : String) (type : TypeId) (text : String)
  | field (parent : DeclId) (name : String) (type : TypeId)
  | var (parent : DeclId) (name : String) (type : TypeId)
  | newTypedef (kind : DeclKind) (parent : DeclId) (name : String) (underlying : TypeId)
  | base (parent : DeclId) (type : TypeId)
  | templateBase (parent template : DeclId) (args : String)
  | typeRef (parent target : DeclId)
  | templateRef (parent target : DeclId)
  | declRef (parent target : DeclId)
  | builtin (name : String)
  | derived (kind : TypeKind) (inner : TypeId)
  | const (type : TypeId)
  | constRef (type : TypeId)
  | array (element : TypeId) (size : Nat)
  | record (decl : DeclId)
  | recordAs (decl : DeclId) (written : String)
  | named (decl : DeclId)
  | enumType (decl : DeclId)
  | namedEnum (decl : DeclId)
  | typedefType (decl : DeclId)
  | typedefTypeAs (decl : DeclId) (written : String)
  | templateParamType (decl : DeclId)
  | leaf (kind : TypeKind) (spelling : String)
  | functionProto (result : TypeId) (params : List TypeId)
  | functionPointer (result : TypeId) (params : List TypeId)
deriving Repr, DecidableEq

def perform : Step → Build Product
  | .inFile file => do
      modify fun builder => { builder with file }
      return .nothing
  | .inUnit => do
      modify fun builder => { builder with file := builder.unitPath }
      return .nothing
  | .systemHeader on => do
      modify fun builder => { builder with system := on }
      return .nothing
  | .setExtent id text => do
      modifyDecl id fun decl => { decl with extent := text }
      return .nothing
  | .setAccess id access => do
      modifyDecl id fun decl => { decl with access }
      return .nothing
  | .add parent kind name => .decl <$> TreeBuilder.add parent kind name
  | .inlineNamespace parent name => .decl <$> TreeBuilder.inlineNamespace parent name
  | .linkageSpec parent => .decl <$> TreeBuilder.linkageSpec parent
  | .forwardClass parent name => .decl <$> TreeBuilder.forwardClass parent name
  | .classTemplate parent name params => .decl <$> TreeBuilder.classTemplate parent name params
  | .typeParam parent name => .decl <$> TreeBuilder.typeParam parent name
  | .nonTypeParam parent name type => .decl <$> TreeBuilder.nonTypeParam parent name type
  | .partialSpecialization parent name args =>
      .decl <$> TreeBuilder.partialSpecialization parent name args
  | .specialization template args => .decl <$> TreeBuilder.specialization template args
  | .enumeration parent name => .decl <$> TreeBuilder.enumeration parent name
  | .scopedEnumeration parent name => .decl <$> TreeBuilder.scopedEnumeration parent name
  | .enumConstant parent name => .decl <$> TreeBuilder.enumConstant parent name
  | .macroDefinition name => .decl <$> TreeBuilder.add DeclTree.root .macroDefinition name
  | .function kind parent name result => .decl <$> TreeBuilder.function kind parent name result
  | .constMethod parent name result => .decl <$> methodWith .isConst parent name result
  | .staticMethod parent name result => .decl <$> methodWith .isStatic parent name result
  | .constructor parent => .decl <$> TreeBuilder.constructor parent
  | .destructor parent => .decl <$> TreeBuilder.destructor parent
  | .conversion parent result => .decl <$> TreeBuilder.conversion parent result
  | .param parent name type => .decl <$> TreeBuilder.param parent name type
  | .paramWithDefault parent name type text =>
      .decl <$> TreeBuilder.paramWithDefault parent name type text
  | .field parent name type => .decl <$> TreeBuilder.field parent name type
  | .var parent name type => .decl <$> TreeBuilder.var parent name type
  | .newTypedef kind parent name underlying =>
      .decl <$> TreeBuilder.newTypedef kind parent name underlying
  | .base parent type => .decl <$> TreeBuilder.base parent type
  | .templateBase parent template args => .decl <$> TreeBuilder.templateBase parent template args
  | .typeRef parent target => .decl <$> TreeBuilder.typeRef parent target
  | .templateRef parent target => .decl <$> TreeBuilder.templateRef parent target
  | .declRef parent target => .decl <$> TreeBuilder.declRef parent target
  | .builtin name => .type <$> TreeBuilder.builtin name
  | .derived kind inner => .type <$> TreeBuilder.derived kind inner
  | .const type => .type <$> TreeBuilder.const type
  | .constRef type => .type <$> TreeBuilder.constRef type
  | .array element size => .type <$> TreeBuilder.array element size
  | .record id => .type <$> TreeBuilder.record id
  | .recordAs id written => .type <$> TreeBuilder.recordAs id written
  | .named id => .type <$> TreeBuilder.named id
  | .enumType id => .type <$> TreeBuilder.enumType id
  | .namedEnum id => .type <$> TreeBuilder.namedEnum id
  | .typedefType id => .type <$> TreeBuilder.typedefType id
  | .typedefTypeAs id written => .type <$> TreeBuilder.typedefTypeAs id written
  | .templateParamType id => .type <$> TreeBuilder.templateParamType id
  | .leaf kind spelling => .type <$> TreeBuilder.pushType (CppType.make kind spelling)
  | .functionProto result params => .type <$> TreeBuilder.functionProto result params
  | .functionPointer result params => .type <$> TreeBuilder.functionPointer result params

/-- Carries out steps one after the other. -/
def performAll (builder : TreeBuilder) (steps : List Step) : TreeBuilder :=
  steps.foldl (fun builder step => (perform step |>.run builder).2) builder

end TreeBuilder

end Bindery
