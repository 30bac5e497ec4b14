/-!
# Kinds of declarations and types

What a node of a declaration tree can be, with the names under which dumps of a tree show it.
-/

set_option autoImplicit false

namespace Bindery

/-- The kinds of declarations. -/
inductive DeclKind where
  | unitRoot
  | namespaceDecl
  | linkageSpec
  | classDecl
  | structDecl
  | unionDecl
  | enumDecl
  | enumConstant
  | functionDecl
  | functionTemplate
  | method
  | constructor
  | destructor
  | conversion
  | fieldDecl
  | varDecl
  | paramDecl
  | typedefDecl
  | typeAlias
  | typeAliasTemplate
  | classTemplate
  | partialSpecialization
  | typeParameter
  | nonTypeParameter
  | templateParameter
  | macroDefinition
  | baseSpecifier
  | typeRef
  | templateRef
  | namespaceRef
  | declRef
  | memberRef
  | call
  | literal
  | expression
  | friendDecl
  | usingDeclaration
  | usingDirective
  | other
deriving Repr, DecidableEq

namespace DeclKind

def names : List (String × DeclKind) :=
  [("TranslationUnit", unitRoot), ("Namespace", namespaceDecl),
   ("LinkageSpec", linkageSpec), ("ClassDecl", classDecl), ("StructDecl", structDecl),
   ("UnionDecl", unionDecl), ("EnumDecl", enumDecl), ("EnumConstant", enumConstant),
   ("FunctionDecl", functionDecl), ("FunctionTemplate", functionTemplate), ("Method", method),
   ("Constructor", constructor), ("Destructor", destructor), ("ConversionFunction", conversion),
   ("FieldDecl", fieldDecl), ("VarDecl", varDecl), ("ParmDecl", paramDecl),
   ("TypedefDecl", typedefDecl), ("TypeAliasDecl", typeAlias),
   ("TypeAliasTemplate", typeAliasTemplate), ("ClassTemplate", classTemplate),
   ("ClassTemplatePartialSpecialization", partialSpecialization),
   ("TemplateTypeParameter", typeParameter), ("NonTypeTemplateParameter", nonTypeParameter),
   ("TemplateTemplateParameter", templateParameter), ("MacroDefinition", macroDefinition),
   ("BaseSpecifier", baseSpecifier), ("TypeRef", typeRef), ("TemplateRef", templateRef),
   ("NamespaceRef", namespaceRef), ("DeclRefExpr", declRef), ("MemberRefExpr", memberRef),
   ("CallExpr", call), ("Literal", literal), ("Expression", expression),
   ("FriendDecl", friendDecl), ("UsingDeclaration", usingDeclaration),
   ("UsingDirective", usingDirective), ("Other", other)]

def name (kind : DeclKind) : String :=
  ((names.find? (·.2 == kind)).map (·.1)).getD "Other"

/-- Class, struct or union. -/
def isRecord : DeclKind → Bool
  | classDecl | structDecl | unionDecl => true
  | _ => false

/-- A new name for a type. -/
def isTypedef : DeclKind → Bool
  | typedefDecl | typeAlias | typeAliasTemplate => true
  | _ => false

/-- A class template or a partial specialization of one. -/
def isClassTemplate : DeclKind → Bool
  | classTemplate | partialSpecialization => true
  | _ => false

def isTemplateParameter : DeclKind → Bool
  | typeParameter | nonTypeParameter | templateParameter => true
  | _ => false

/-- A node that points at another declaration. -/
def isReference : DeclKind → Bool
  | typeRef | templateRef | namespaceRef | declRef | memberRef => true
  | _ => false

def isExpression : DeclKind → Bool
  | declRef | memberRef | call | literal | expression => true
  | _ => false

/-- A declaration that makes a scope with a name. -/
def isScope (kind : DeclKind) : Bool :=
  kind == namespaceDecl || kind == enumDecl || kind.isRecord || kind.isClassTemplate

/-- A declaration that is complete as soon as it is made. -/
def definesItself (kind : DeclKind) : Bool :=
  kind.isRecord || kind.isClassTemplate || kind == namespaceDecl || kind == enumDecl

end DeclKind

/-- The access to a member of a class; what is outside a class is public. -/
inductive Access where
  | isPublic
  | isProtected
  | isPrivate
deriving Repr, DecidableEq

def Access.names : List (String × Access) :=
  [("Public", isPublic), ("Protected", isProtected), ("Private", isPrivate)]

def Access.name (access : Access) : String :=
  ((names.find? (·.2 == access)).map (·.1)).getD "Public"

/-- The properties that a declaration may have or not. -/
inductive DeclFlag where
  | isConst
  | isStatic
  | isDeleted
  | isAbstract
  | isVariadic
  | isDefinition
  | isVirtual
  | isPureVirtual
  | isInlineNamespace
  | isScopedEnum
  | isAnonymous
  | isDefaultConstructor
  | isCopyConstructor
  | isMoveConstructor
deriving Repr, DecidableEq

def DeclFlag.names : List (String × DeclFlag) :=
  [("is_abstract", isAbstract), ("is_anonymous", isAnonymous), ("is_const", isConst),
   ("is_copy_constructor", isCopyConstructor), ("is_default_constructor", isDefaultConstructor),
   ("is_definition", isDefinition), ("is_deleted", isDeleted),
   ("is_inline_namespace", isInlineNamespace), ("is_move_constructor", isMoveConstructor),
   ("is_pure_virtual", isPureVirtual), ("is_scoped_enum", isScopedEnum),
   ("is_static", isStatic), ("is_variadic", isVariadic), ("is_virtual", isVirtual)]

/-- The kinds of types. -/
inductive TypeKind where
  | builtin
  | pointer
  | lvalueRef
  | rvalueRef
  | constantArray
  | incompleteArray
  | elaborated
  | record
  | enum
  | typedefName
  | functionProto
  | templateParameter
  | dependent
  | unexposed
deriving Repr, DecidableEq

namespace TypeKind

def names : List (String × TypeKind) :=
  [("Builtin", builtin), ("Pointer", pointer), ("LValueReference", lvalueRef),
   ("RValueReference", rvalueRef), ("ConstantArray", constantArray),
   ("IncompleteArray", incompleteArray), ("Elaborated", elaborated), ("Record", record),
   ("Enum", enum), ("Typedef", typedefName), ("FunctionProto", functionProto),
   ("TemplateParameter", templateParameter), ("Dependent", dependent), ("Unexposed", unexposed)]

def name (kind : TypeKind) : String :=
  ((names.find? (·.2 == kind)).map (·.1)).getD "Unexposed"

def isReference (kind : TypeKind) : Bool :=
  kind == lvalueRef || kind == rvalueRef

def isArray (kind : TypeKind) : Bool :=
  kind == constantArray || kind == incompleteArray

end TypeKind

end Bindery
