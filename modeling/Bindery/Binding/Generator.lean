import Bindery.Binding.Traversal

/-!
# Generation unit by unit

The units of a project are generated in order; each may use the classes and builders of those
before it.
-/

set_option autoImplicit false

namespace Bindery

namespace UnitBindings

def artifact (bindings : UnitBindings) (extension : String) : String :=
  Name.artifact bindings.relativePath extension

end UnitBindings

namespace UnitContext

/-- The path by which generated code includes the header. -/
def headerInclude (context : UnitContext) : String :=
  context.options.headerInclude.getD (Path.withSlashes context.relative)

/-- The bindings of the unit, given its fragments and its state at the end. -/
def bindings (context : UnitContext) (fragments : List Fragment) (state : UnitState) :
    UnitBindings :=
  ⟨context.relative, Name.unitInit context.relative, context.headerInclude, state.builderIncludes,
    fragments, state.builders, state.operators.groups (context.boundIdentifier? state),
    state.iteratorTraits⟩

end UnitContext

namespace ProjectIndex

/-- The index after a unit: its classes and builders are added. -/
def recordUnit (index : ProjectIndex) (state : UnitState) (ippPath : String) : ProjectIndex :=
  let index := state.classes.foldl (fun index (cppType, identifier) =>
    index.recordClass cppType identifier) index
  state.localBuilders.foldl (fun index (template, name) =>
    index.recordBuilder template ⟨name, ippPath⟩) index

end ProjectIndex

/-- What one unit gives: its bindings, the index for later units and what there is to report. -/
structure UnitResult where
  bindings : UnitBindings
  index : ProjectIndex
  events : List Event
deriving Repr, DecidableEq

/-- Generates the bindings of one unit.  There is no result if more than `depth` instantiations
would have to be synthesized, each for the sake of the one before. -/
def generateUnit (depth : Nat) (options : BindOptions) (index : ProjectIndex)
    (unit : SourceUnit) (relative : String) : Option UnitResult := do
  let context := UnitContext.ofUnit depth unit options index relative
  let (fragments, progress) ← context.visitUnit.run ⟨UnitState.empty, []⟩
  let bindings := context.bindings fragments progress.unit
  some ⟨bindings, index.recordUnit progress.unit (bindings.artifact "ipp"),
    progress.events ++ [.unitGenerated fragments.length bindings.builders.length]⟩

def ProjectBindings.ofUnits (name : String) (units : List UnitBindings) : ProjectBindings :=
  ⟨name, Name.projectInit name, units⟩

end Bindery
