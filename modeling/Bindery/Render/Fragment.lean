import Bindery.Render.Line
import Bindery.Render.Member

/-!
# Statements of fragments

The statements that define a fragment, and those of builders, operators and iterator traits.
-/

set_option autoImplicit false

namespace Bindery

namespace Code

/-- The start of a class: the variable that holds it and the call that defines it. -/
def classHead (identifier name cppType : String) (base : Option String) (parent : Parent) :
    String :=
  let variable_ := applied "Rice::Data_Type" cppType ++ " " ++ identifier ++ " = "
  let args := Text.joinArgs (cppType :: base.toList)
  match parent.identifier? with
  | some outer =>
      variable_ ++ applied "define_class_under" args ++ "(" ++ outer ++ ", " ++ quoted name ++ ")"
  | none => variable_ ++ applied "define_class" args ++ "(" ++ quoted name ++ ")"

def opaqueStatement (outer : String) (inner : OpaqueClass) : CodeLine :=
  .flat (classHead inner.identifier inner.name inner.cppType none (.class_ outer) ++ ";")

/-- The definition of a second name for a method. -/
def aliasStatement (receiver : String) (alias_ : Alias) : CodeLine :=
  .flat ("rb_define_alias(" ++ receiver ++ ", " ++ quoted alias_.newName ++ ", "
    ++ quoted alias_.oldName ++ ");")

/-- The statements of a class.  Opaque classes stand before the members, which may mention
them. -/
def classStatements (binding : ClassBinding) : List CodeLine :=
  let head :=
    classHead binding.identifier binding.name binding.cppType binding.base binding.parent
  let links := binding.members.map (MemberScope.mk binding.cppType false).link
  let body :=
    if binding.opaqueClasses.isEmpty then
      chain head links
    else
      chain head [] ++ binding.opaqueClasses.map (opaqueStatement binding.identifier)
        ++ if links.isEmpty then [] else chain binding.identifier links
  body ++ binding.aliases.map (aliasStatement binding.identifier)

def moduleStatement (identifier name : String) (parent : Parent) : String :=
  let call :=
    match parent.identifier? with
    | some outer => "define_module_under(" ++ outer ++ ", " ++ quoted name ++ ")"
    | none => "define_module(" ++ quoted name ++ ")"
  "Module " ++ identifier ++ " = " ++ call ++ ";"

def enumHead (identifier name cppType : String) (parent : Parent) : String :=
  let call :=
    match parent.identifier? with
    | some outer =>
        applied "define_enum_under" cppType ++ "(" ++ quoted name ++ ", " ++ outer ++ ")"
    | none => applied "define_enum" cppType ++ "(" ++ quoted name ++ ")"
  applied "Enum" cppType ++ " " ++ identifier ++ " = " ++ call

/-- The call that applies a builder to a class. -/
def builderLink (cppType : String) (call : BuilderCall) : String :=
  let args := Text.joinArgs (applied "Data_Type" cppType :: call.templateArgs)
  "define(&" ++ applied call.name args ++ ")"

def functionStatement (parent : Parent) (function : Callable) : String :=
  let scope := MemberScope.mk "" false
  let define (name : String) : String := callable (scope.defining name function.signature) function
  match parent with
  | .global => define "define_global_function" ++ ";"
  | .module_ identifier => identifier ++ "." ++ define "define_module_function" ++ ";"
  | .class_ identifier => identifier ++ "." ++ define "define_singleton_function" ++ ";"

/-- What constants and variables are defined on. -/
def receiver (parent : Parent) : String :=
  parent.identifier?.getD "Rice::Module(rb_cObject)"

def fragmentStatements : Fragment → List CodeLine
  | .module_ identifier name parent => [.flat (moduleStatement identifier name parent)]
  | .class_ binding => classStatements binding
  | .enum identifier name cppType parent values =>
      chain (enumHead identifier name cppType parent)
        (values.map fun (name, value) => "define_value(" ++ quoted name ++ ", " ++ value ++ ")")
  | .instantiation identifier name cppType base parent builder =>
      chain (classHead identifier name cppType base parent)
        (builder.map (builderLink cppType)).toList
  | .function parent function => [.flat (functionStatement parent function)]
  | .constant parent name cppValue =>
      [.flat (receiver parent ++ ".define_constant(" ++ quoted name ++ ", " ++ cppValue ++ ");")]
  | .variable_ parent name cppName readOnly =>
      [.flat (receiver parent ++ "." ++ attributeCall "define_singleton_attr" name cppName readOnly
        ++ ";")]

def standsOff : Fragment → Bool
  | .class_ _ => true
  | .instantiation _ _ _ _ _ _ => true
  | _ => false

/-- The statements of all fragments of a unit. -/
def allFragments : List Fragment → List CodeLine
  | [] => []
  | first :: later =>
      fragmentStatements first ++ later.flatMap fun fragment =>
        (if standsOff fragment then [.blank] else []) ++ fragmentStatements fragment

def builderFunction (builder : Builder) : List CodeLine :=
  let links := builder.members.map (MemberScope.mk builder.cppType true).link
  [.flat (applied "template" (Text.joinArgs ("typename Data_Type_T" :: builder.templateParams))),
    .flat ("inline void " ++ builder.name ++ "(Data_Type_T& klass)")]
    ++ braced "\x7d" (chain "klass" links ++ builder.aliases.map (aliasStatement "klass"))

/-- The statement that adds free operators to their class. -/
def operatorStatements (group : OperatorGroup) : List CodeLine :=
  chain (group.target.getD (applied "Rice::Data_Type" group.cppType ++ "()"))
    (group.operators.map (lambda "define_method"))

def iteratorTraits (traits : IteratorTraits) : List CodeLine :=
  let referenced := (if traits.isConst then "const " else "") ++ traits.valueType
  [.flat "template<>", .flat ("struct " ++ applied "iterator_traits" traits.cppType)]
    ++ braced "\x7d;"
      [.flat ("using value_type = " ++ traits.valueType ++ ";"),
        .flat ("using reference = " ++ referenced ++ "&;"),
        .flat ("using pointer = " ++ referenced ++ "*;"),
        .flat "using difference_type = std::ptrdiff_t;",
        .flat "using iterator_category = std::forward_iterator_tag;"]

end Code

end Bindery
