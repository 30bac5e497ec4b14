import Bindery.Glob.Listing
import Bindery.Run.Job

/-!
# Headers of a run

The headers that the patterns of a job select, less those that its skip patterns match.
-/

set_option autoImplicit false

namespace Bindery

/-- A header to bind; its path relative to the input directory determines the output. -/
structure UnitInput where
  relative : String
  path : String
deriving Repr, DecidableEq

namespace UnitInput

/-- Headers are ordered by relative path, then by path. -/
def compare (a b : UnitInput) : Ordering :=
  (Path.compare a.relative b.relative).then (Path.compare a.path b.path)

/-- Whether two headers have the same paths. -/
def same (a b : UnitInput) : Bool :=
  Path.same a.relative b.relative && Path.same a.path b.path

/-- Headers in order and each once. -/
def normalize (inputs : List UnitInput) : List UnitInput :=
  (inputs.mergeSort fun a b => (compare a b).isLE).eraseRepsBy same

end UnitInput

namespace Job

/-- Reads a file pattern. -/
def compilePattern (pattern : String) : Run (List Glob.Token) :=
  match Glob.parse pattern with
  | .ok tokens => return tokens
  | .error error => throw (.filePattern pattern error)

/-- The header at a path that a pattern matched, unless it is no file or is skipped. -/
def selectInput (job : Job) (skips : List (List Glob.Token)) (path : String) :
    Run (Option UnitInput) := do
  if (← Run.files).isFile path then
    let relative ← job.relativePath path
    if skips.any (Glob.matchesAll · relative) then
      Run.report (.headerSkipped relative)
      return none
    else
      return some ⟨relative, path⟩
  else
    return none

def selectInputs (job : Job) (skips : List (List Glob.Token)) (pattern : String) :
    Run (List UnitInput) := do
  let _ ← compilePattern pattern
  match Glob.list (← Run.files) (Path.join job.config.project.input pattern) with
  | .error error => throw (.filePattern pattern error)
  | .ok paths => return (← paths.mapM (job.selectInput skips)).reduceOption

/-- The headers to bind, in the order in which they are processed. -/
def inputs (job : Job) : Run (List UnitInput) := do
  let skips ← job.config.files.skip.mapM compilePattern
  let found ← job.config.files.patterns.mapM (job.selectInputs skips)
  return UnitInput.normalize found.flatten

/-- The header at a path, which may be relative to the input directory. -/
def inputAt (job : Job) (path : String) : Except RunError UnitInput := do
  let path := if Path.isAbsolute path then path else Path.join job.config.project.input path
  return ⟨← job.relativePath path, path⟩

end Job

end Bindery
