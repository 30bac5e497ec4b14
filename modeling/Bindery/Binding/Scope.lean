import Bindery.Binding.Context
import Bindery.Name.Identifier

/-!
# Modules of namespaces

Each namespace with a name has one module.  It is made when the traversal enters the namespace, or
before that if something inside is needed earlier; then the modules around it are made first.
-/

set_option autoImplicit false

namespace Bindery

namespace UnitContext

/-- The identifier under which a C++ type is bound, in this unit or in an earlier one. -/
def boundIdentifier? (context : UnitContext) (state : UnitState) (cppType : String) :
    Option String :=
  (state.identifierFor? cppType).or (context.index.knownClass? cppType)

def moduleIdentifier (context : UnitContext) (id : DeclId) : String :=
  Name.moduleIdentifier (context.tree.qualifiedName id)

/-- Opens the module of a namespace; gives the fragment that makes it, or none if it is open. -/
def openNamespace (context : UnitContext) (id : DeclId) (parent : Parent) :
    Gen (Option Fragment) := do
  let qualified := context.tree.qualifiedName id
  if (← Gen.unit).namespaces.contains qualified then
    return none
  else
    let identifier := context.moduleIdentifier id
    Gen.change (·.openModule qualified identifier)
    return some (.module_ identifier
      (context.options.namer.moduleName (context.tree.decl id).spelling qualified) parent)

/-- Whether a namespace has a module of its own. -/
def hasModule (decl : Decl) : Bool :=
  !decl.has .isInlineNamespace && !decl.anonymous

/-- What a declaration found out of turn is attached to, given the scope around it.  The modules
that are missing wait to go before the current fragment. -/
def ensureScopeTo (context : UnitContext) : Nat → Option DeclId → Gen Parent
  | _, none => return .global
  | 0, some _ => failure
  | depth + 1, some id => do
      let decl := context.tree.decl id
      let around := context.tree.semanticParent id
      match decl.kind with
      | .unitRoot => return .global
      | .namespaceDecl =>
          let outer ← context.ensureScopeTo depth around
          if hasModule decl then
            if let some fragment ← context.openNamespace id outer then
              Gen.enqueue fragment
            return .module_ (context.moduleIdentifier id)
          else
            return outer
      | .classDecl | .structDecl | .unionDecl =>
          match context.boundIdentifier? (← Gen.unit) (context.tree.qualifiedName id) with
          | some identifier => return .class_ identifier
          | none => context.ensureScopeTo depth around
      | _ => context.ensureScopeTo depth around

/-- What a declaration found out of turn is attached to, given the scope around it. -/
def ensureScope (context : UnitContext) (scope : Option DeclId) : Gen Parent :=
  context.ensureScopeTo (context.tree.size + 1) scope

end UnitContext

end Bindery
