import Bindery.Binding.Generator
import Bindery.Render.Fragment
import Bindery.Render.Include

/-!
# Files of a unit and of a project

Each unit has a declaration, an implementation and, if it has builders, a builder file; the
project has an init function that calls those of its units.
-/

set_option autoImplicit false

namespace Bindery

namespace UnitBindings

def hasBuilders (bindings : UnitBindings) : Bool :=
  !bindings.builders.isEmpty

/-- Whether an operator of the unit writes to a string stream. -/
def needsStringStream (bindings : UnitBindings) : Bool :=
  bindings.operators.any fun group =>
    group.operators.any fun operator => Text.containsText "std::ostringstream" operator.body

/-- The name of the generated file with the given extension. -/
def artifactName (bindings : UnitBindings) (extension : String) : String :=
  (Path.fileName? (bindings.artifact extension)).getD ""

end UnitBindings

namespace Code

/-- An include directive for a file of the project. -/
def includeLine (path : String) : CodeLine :=
  .flat ("#include " ++ quoted path)

/-- An include directive for a header found on the search path. -/
def includeHeader (path : String) : CodeLine :=
  .flat ("#include <" ++ path ++ ">")

/-- The declaration file of a unit. -/
def unitHeader (unit : UnitBindings) : String :=
  write [includeHeader "rice/rice.hpp", includeHeader "rice/stl.hpp", .blank,
    .flat ("void " ++ unit.initName ++ "();")]

/-- The include directives of a unit's implementation. -/
def unitIncludes (unit : UnitBindings) : List CodeLine :=
  let directory := (Path.parent? unit.relativePath).getD ""
  (if unit.needsStringStream then [includeHeader "sstream"] else [])
    ++ [includeHeader unit.headerInclude, includeLine (unit.artifactName "hpp")]
    ++ unit.builderIncludes.map (fun path => includeLine (Path.includePath directory path))
    ++ if unit.hasBuilders then [includeLine (unit.artifactName "ipp")] else []

/-- The traits of a unit's iterator classes. -/
def unitTraits (unit : UnitBindings) : List CodeLine :=
  if unit.iteratorTraits.isEmpty then []
  else
    [.blank, .flat "namespace std"] ++ braced "\x7d" (unit.iteratorTraits.flatMap iteratorTraits)

/-- The implementation file of a unit. -/
def unitSource (unit : UnitBindings) : String :=
  write <|
    unitIncludes unit ++ [.blank, .flat "using namespace Rice;"] ++ unitTraits unit
      ++ [.blank, .flat ("void " ++ unit.initName ++ "()")]
      ++ braced "\x7d" (allFragments unit.fragments
        ++ unit.operators.flatMap fun group => .blank :: operatorStatements group)

def unitBuilders (unit : UnitBindings) : String :=
  write (.flat "#pragma once"
    :: unit.builders.flatMap fun builder => .blank :: builderFunction builder)

def unitFiles (unit : UnitBindings) : List RenderedFile :=
  [⟨unit.artifact "hpp", unitHeader unit⟩, ⟨unit.artifact "cpp", unitSource unit⟩]
    ++ if unit.hasBuilders then [⟨unit.artifact "ipp", unitBuilders unit⟩] else []

/-- The declaration file of a project. -/
def projectHeader (project : ProjectBindings) : String :=
  write [includeHeader "rice/rice.hpp", .blank, .flat "extern \"C\"",
    .flat ("void " ++ project.initName ++ "();")]

/-- The implementation file of a project. -/
def projectSource (project : ProjectBindings) : String :=
  let headers := project.units.map fun unit =>
    includeLine (Path.withSlashes (unit.artifact "hpp"))
  write <|
    [includeLine (project.name ++ "-rb.hpp")] ++ headers
      ++ [.blank, .flat "extern \"C\"", .flat ("void " ++ project.initName ++ "()")]
      ++ braced "\x7d" (project.units.map fun unit => .flat (unit.initName ++ "();"))

def projectFiles (project : ProjectBindings) : List RenderedFile :=
  [⟨project.name ++ "-rb.hpp", projectHeader project⟩,
    ⟨project.name ++ "-rb.cpp", projectSource project⟩]

end Code

end Bindery
