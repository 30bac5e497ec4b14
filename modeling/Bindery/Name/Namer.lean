import Bindery.Name.Method
import Bindery.Rules.Table

/-!
# Ruby names

The Ruby name of a symbol: the one that the configuration gives, or else the conventional one.
-/

set_option autoImplicit false

namespace Bindery

/-- Gives Ruby names under a table of configured ones. -/
structure Namer where
  renames : RuleTable
deriving Repr, DecidableEq

namespace Namer

/-- The configured name of a symbol; the qualified name is looked up first. -/
def renamed (namer : Namer) (simple qualified : String) : Option String :=
  (namer.renames.lookup [qualified, simple]).bind (·.renamed)

def moduleName (namer : Namer) (simple qualified : String) : String :=
  (namer.renamed simple qualified).getD (Name.camelCase simple)

def className (namer : Namer) (simple qualified : String) : String :=
  (namer.renamed simple qualified).getD (Name.camelCase (Text.stripTemplateArgs simple))

def methodName (namer : Namer) (shape : Name.MethodShape) (qualified : String) : String :=
  (namer.renamed shape.name qualified).getD (Name.method shape)

def attributeName (namer : Namer) (simple qualified : String) : String :=
  (namer.renamed simple qualified).getD (Name.snakeCase simple)

def constantName (namer : Namer) (simple qualified : String) : String :=
  (namer.renamed simple qualified).getD (Name.constant simple)

end Namer

end Bindery
