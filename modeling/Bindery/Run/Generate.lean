import Bindery.Binding.Generator
import Bindery.Run.Input

/-!
# Bindings of a run

The headers of a job are processed one after the other.  A header without a tree is reported and
leaves no trace in the bindings of the others.
-/

set_option autoImplicit false

namespace Bindery

/-- A header that could not be parsed. -/
structure UnitFailure where
  input : UnitInput
  error : RunError
deriving Repr, DecidableEq

/-- The bindings of the headers that could be parsed, and the other headers. -/
structure Generation where
  project : ProjectBindings
  failures : List UnitFailure
deriving Repr, DecidableEq

namespace Job

/-- What the front-end makes of a header. -/
def tree? (job : Job) (input : UnitInput) : Except RunError SourceUnit :=
  (job.frontend input.path job.frontendArgs).mapError (.frontend input.path)

def parse (job : Job) (input : UnitInput) : Run SourceUnit := do
  modify fun state => { state with calls := state.calls ++ [job.frontendArgs] }
  job.tree? input

/-- The options that the configuration gives. -/
def options (job : Job) : Except RunError BindOptions :=
  (BindOptions.ofConfig job.config.symbols).mapError fun pattern =>
    .config (.invalidPattern pattern)

/-- The bindings of a parsed header and the index after it. -/
def bind (job : Job) (options : BindOptions) (index : ProjectIndex) (input : UnitInput)
    (unit : SourceUnit) : Run (UnitBindings × ProjectIndex) := do
  match generateUnit job.depth options index unit input.relative with
  | none => throw (.tooDeep input.path)
  | some result =>
      modify fun state => { state with events := state.events ++ result.events }
      return (result.bindings, result.index)

/-- The bindings of some headers and the failures among them, both in order. -/
def bindAll (job : Job) (options : BindOptions) :
    ProjectIndex → List UnitInput → Run (List UnitBindings × List UnitFailure)
  | _, [] => return ([], [])
  | index, input :: later => do
      match ← observing (job.parse input) with
      | .ok unit =>
          let (bindings, index) ← job.bind options index input unit
          let (units, failures) ← job.bindAll options index later
          return (bindings :: units, failures)
      | .error error =>
          Run.report (.noBindings input.relative error.message)
          let (units, failures) ← job.bindAll options index later
          return (units, ⟨input, error⟩ :: failures)

/-- The bindings of the whole job. -/
def generate (job : Job) : Run Generation := do
  let inputs ← job.inputs
  let options ← job.options
  let (units, failures) ← job.bindAll options ProjectIndex.empty inputs
  Run.report (.generationFinished units.length failures.length)
  return ⟨ProjectBindings.ofUnits job.config.project.name units, failures⟩

/-- The bindings of one header on its own. -/
def generateInput (job : Job) (input : UnitInput) : Run UnitBindings := do
  let unit ← job.parse input
  return (← job.bind (← job.options) ProjectIndex.empty input unit).1

end Job

end Bindery
