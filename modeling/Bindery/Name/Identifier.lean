import Bindery.Name.Case
import Bindery.Path
import Bindery.Text.Scope

/-!
# Identifiers of the generated code

The C++ identifiers under which modules, classes, builder functions and init functions stand in
the generated files, and the names of those files.
-/

set_option autoImplicit false

namespace Bindery

namespace Name

/-- The components of a qualified name in camel case, run together, template arguments left
out. -/
def camelPath (qualified : String) : String :=
  String.join ((Text.splitScope (Text.stripTemplateArgs qualified)).map camelCase)

/-- `geo::mesh` becomes `rb_mGeoMesh`. -/
def moduleIdentifier (qualified : String) : String :=
  "rb_m" ++ camelPath qualified

/-- `geo::Point<int>` becomes `rb_cGeoPoint`. -/
def classIdentifier (qualified : String) : String :=
  "rb_c" ++ camelPath qualified

/-- The builder function of a class template. -/
def builder (qualified : String) : String :=
  camelPath qualified ++ "_builder"

/-- `shape/disk.hpp` becomes `Init_Shape_Disk`. -/
def unitInit (relative : String) : String :=
  let components := Path.components (Path.withExtension relative "")
  "Init_" ++ "_".intercalate (components.map fun component => camelCase component.text)

/-- `geometry` becomes `Init_Geometry`. -/
def projectInit (project : String) : String :=
  "Init_" ++ camelCase project

/-- The generated file of a header: `dir/name.hpp` with extension `ipp` becomes
`dir/name-rb.ipp`. -/
def artifact (relative extension : String) : String :=
  Path.withFileName relative ((Path.fileStem? relative).getD "" ++ "-rb." ++ extension)

/-- The words of template arguments in camel case, run together: `int`, `3` becomes `Int3`. -/
def argumentSuffix (args : List String) : String :=
  String.join <| args.map fun arg =>
    String.ofList <|
      (Chars.wordsBy (fun c => !Chars.isIdentChar c) arg.toList).flatMap Chars.camelCase

end Name

end Bindery
