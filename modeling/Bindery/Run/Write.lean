import Bindery.Render.Unit
import Bindery.Run.Generate

/-!
# Whole runs

A run generates the bindings of a job and writes their files below the output directory.
-/

set_option autoImplicit false

namespace Bindery

/-- What a run without failures did. -/
structure RunSummary where
  units : Nat
  written : List String
deriving Repr, DecidableEq

namespace Code

/-- The files of all units and of the project, in the order in which they are written. -/
def allFiles (project : ProjectBindings) : List RenderedFile :=
  project.units.flatMap unitFiles ++ projectFiles project

end Code

namespace Job

/-- Writes a generated file; gives its path. -/
def writeFile (job : Job) (file : RenderedFile) : Run String := do
  let path := Path.join job.config.project.output file.path
  match (← Run.files).write? path file.contents with
  | none => throw (.unwritable path)
  | some files =>
      modify fun state => { state with files }
      Run.report (.written path)
      return path

/-- Writes the files of a project; gives their paths. -/
def write (job : Job) (project : ProjectBindings) : Run (List String) :=
  (Code.allFiles project).mapM job.writeFile

/-- Generates and writes the whole project.  Failures of headers are told at the end. -/
def run (job : Job) : Run RunSummary := do
  let generation ← job.generate
  let written ← job.write generation.project
  let units := generation.project.units.length
  if generation.failures.isEmpty then
    return ⟨units, written⟩
  else
    generation.failures.forM fun failure =>
      Run.report (.headerFailed failure.input.relative failure.error.message)
    throw (.unitsFailed generation.failures.length (units + generation.failures.length))

end Job

end Bindery
