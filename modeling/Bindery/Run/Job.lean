import Bindery.Binding.Event
import Bindery.Files
import Bindery.Run.Error

/-!
# Jobs

A configured job, and the state in which its parts are carried out: the files, the arguments that
the front-end got, and the events so far.
-/

set_option autoImplicit false

namespace Bindery

/-- What is to be done: a configuration, the front-end for its headers, and the number of
instantiations that a unit may need each for the sake of the one before. -/
structure Job where
  config : Config
  frontend : Frontend
  depth : Nat

/-- The state of a run; the latest call of the front-end and the latest event stand last. -/
structure RunState where
  files : FileTree
  calls : List (List String)
  events : List Event
deriving Repr, DecidableEq

/-- A part of a run.  Whatever was done before a failure stays done. -/
abbrev Run := ExceptT RunError (StateM RunState)

namespace Run

def files : Run FileTree := do
  return (← get).files

def report (event : Event) : Run Unit :=
  modify fun state => { state with events := state.events ++ [event] }

end Run

namespace Job

/-- The arguments for the front-end. -/
def frontendArgs (job : Job) : List String :=
  job.config.clangArgs ++ ["-I" ++ job.config.project.input]

/-- The path of a header below the input directory. -/
def relativePath (job : Job) (path : String) : Except RunError String :=
  match Path.stripPrefix? job.config.project.input path with
  | some relative => .ok relative
  | none => .error (.notAnInput path)

end Job

end Bindery
