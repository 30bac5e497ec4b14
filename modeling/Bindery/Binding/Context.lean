import Bindery.Binding.Event
import Bindery.Binding.State
import Bindery.Config
import Bindery.Name.Namer
import Bindery.Rules.Filter
import Bindery.Spelling.Speller

/-!
# Rules in force

What is fixed while a unit is traversed: its declarations, the options of the run and the index of
earlier units; and the operations by which the traversal consults them and reports what it skips.
-/

set_option autoImplicit false

namespace Bindery

/-- The options of a run. -/
structure BindOptions where
  skip : SymbolFilter
  namer : Namer
  exportMacros : List String
  headerInclude : Option String
deriving Repr, DecidableEq

def BindOptions.ofConfig (symbols : SymbolsConfig) : Except InvalidPattern BindOptions := do
  let skips ← RuleTable.skips symbols.skip
  let renames ← RuleTable.renames symbols.rename
  return ⟨SymbolFilter.ofRules skips, ⟨renames⟩, symbols.exportMacros, symbols.headerInclude⟩

/-- What is fixed while a unit is traversed.  `overloads` holds the qualified name of each public
function and method of the unit's own file, one entry for each declaration; `depth` is the number
of instantiations that may be synthesized each for the sake of the one before. -/
structure UnitContext where
  speller : Speller
  options : BindOptions
  index : ProjectIndex
  unitFile : String
  relative : String
  overloads : List String
  depth : Nat
deriving Repr, DecidableEq

/-- The state of a unit and the events so far, the latest last. -/
structure Progress where
  unit : UnitState
  events : List Event
deriving Repr, DecidableEq

/-- A step of generation.  It has no result if it would not end. -/
abbrev Gen := StateT Progress Option

namespace Gen

def unit : Gen UnitState := do
  return (← get).unit

def change (f : UnitState → UnitState) : Gen Unit :=
  modify fun progress => { progress with unit := f progress.unit }

def report (event : Event) : Gen Unit :=
  modify fun progress => { progress with events := progress.events ++ [event] }

/-- Binds a C++ type to an identifier; tells whether that was possible. -/
def register (identifier cppType : String) : Gen Bool := do
  let state ← unit
  match state.register? identifier cppType with
  | some state =>
      change fun _ => state
      return true
  | none =>
      if let some owner := state.collision? identifier cppType then
        report (.identifierCollision identifier owner cppType)
      return false

def takePending : Gen (List Fragment) := do
  let state ← unit
  change fun state => { state with pending := [] }
  return state.pending

/-- Lets a fragment wait. -/
def enqueue (fragment : Fragment) : Gen Unit :=
  change fun state => { state with pending := state.pending ++ [fragment] }

end Gen

namespace UnitContext

def tree (context : UnitContext) : DeclTree :=
  context.speller.tree

/-- Whether a declaration counts as an overload of its name. -/
def isOverload (tree : DeclTree) (unitFile : String) (id : DeclId) : Bool :=
  let decl := tree.decl id
  (decl.kind == .method || decl.kind == .functionDecl) && decl.access == .isPublic
    && !decl.has .isDeleted && tree.isInFile id unitFile

def ofUnit (depth : Nat) (unit : SourceUnit) (options : BindOptions) (index : ProjectIndex)
    (relative : String) : UnitContext :=
  ⟨Speller.ofTree unit.tree, options, index, unit.path, relative,
    (unit.tree.ids.filter (isOverload unit.tree unit.path)).map unit.tree.qualifiedName, depth⟩

/-- Whether a function shares its name with another. -/
def overloaded (context : UnitContext) (function : DeclId) : Bool :=
  1 < context.overloads.count (context.tree.qualifiedName function)

/-- Whether a declaration takes part at all: one of the unit's own file that is public, not deleted
and, if it is a class, an enum or a class template, defined. -/
def accepts (context : UnitContext) (id : DeclId) : Bool :=
  let decl := context.tree.decl id
  let canBeForward :=
    decl.kind.isRecord || decl.kind == .enumDecl || decl.kind == .classTemplate
  !decl.location.inSystemHeader && context.tree.isInFile id context.unitFile
    && decl.access == .isPublic && !decl.has .isDeleted
    && (!canBeForward || decl.has .isDefinition)

def skipRule? (context : UnitContext) (id : DeclId) : Option RuleMatch :=
  context.options.skip.lookup
    [context.tree.qualifiedName id, (context.tree.decl id).spelling]

def skipped (context : UnitContext) (id : DeclId) : Gen Bool := do
  match context.skipRule? id with
  | some found =>
      Gen.report (.skippedByRule (context.tree.qualifiedName id) found.candidate)
      return true
  | none => return false

/-- The first spelling that mentions a skipped symbol, and the symbol. -/
def skippedMention? (context : UnitContext) (spellings : List String) :
    Option (String × String) :=
  spellings.findSome? fun spelling =>
    (context.options.skip.mentionedIn spelling).map fun symbol => (spelling, symbol)

/-- Whether one of the spellings of a declaration mentions a skipped symbol. -/
def mentionsSkipped (context : UnitContext) (id : DeclId) (spellings : List String) :
    Gen Bool := do
  match context.skippedMention? spellings with
  | some (spelling, symbol) =>
      Gen.report (.skippedThroughType (context.tree.qualifiedName id) symbol spelling)
      return true
  | none => return false

/-- Whether a declaration is a member of a class or class template. -/
def isMember (tree : DeclTree) (id : DeclId) : Bool :=
  (tree.semanticParent id).any fun parent =>
    let kind := (tree.decl parent).kind
    kind.isRecord || kind.isClassTemplate

/-- Whether a declaration passes the test for export: outside classes its text must show one of the
macros, if there are any. -/
def isExported (context : UnitContext) (id : DeclId) : Bool :=
  context.options.exportMacros.isEmpty || isMember context.tree id
    || context.options.exportMacros.any (Text.containsWord (context.tree.decl id).extent)

/-- Whether a declaration passes the test for export; reports one that does not. -/
def exported (context : UnitContext) (id : DeclId) : Gen Bool := do
  if context.isExported id then
    return true
  else
    Gen.report (.notExported (context.tree.qualifiedName id))
    return false

end UnitContext

end Bindery
