import Bindery.Path

/-!
# Paths in include directives

How a generated file names another one: by the way up from its own directory and down again.
-/

set_option autoImplicit false

namespace Bindery

namespace Path

/-- Two lists of components without what they have in common at the front. -/
def dropCommon : List Component → List Component → List Component × List Component
  | a :: as, b :: bs => if a = b then dropCommon as bs else (a :: as, b :: bs)
  | as, bs => (as, bs)

/-- Joins components from left to right. -/
def ofComponents (components : List Component) : String :=
  components.foldl (fun path component => join path component.text) ""

/-- The path from `directory` to `target`: a step up for each component that only the directory
has, then the components that only the target has. -/
def includePath (directory target : String) : String :=
  let (left, entered) := dropCommon (components directory) (components target)
  withSlashes (ofComponents (left.map (fun _ => .up) ++ entered))

end Path

end Bindery
