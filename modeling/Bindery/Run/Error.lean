import Bindery.Config
import Bindery.Glob.Pattern
import Bindery.Tree.Decl

/-!
# Failures of a run

What can go wrong with a header or with a whole run, and how it is told.
-/

set_option autoImplicit false

namespace Bindery

/-- Why a front-end gives no tree for a header. -/
inductive FrontendError where
  | noIndex
  | invalidPath (path : String)
  | unparsable (path : String)
  | diagnostic (file : String) (line column : Nat) (message : String)
deriving Repr, DecidableEq

/-- The text of a front-end's error. -/
def FrontendError.message : FrontendError → String
  | noIndex => "Failed to create clang index"
  | invalidPath path => "Invalid path: " ++ path
  | unparsable path => "Failed to parse " ++ path
  | diagnostic file line column message =>
      file ++ ":" ++ toString line ++ ":" ++ toString column ++ ": " ++ message

/-- Something that turns a header, given by its path, and some arguments into a tree. -/
abbrev Frontend := String → List String → Except FrontendError SourceUnit

/-- Why a run or a part of it fails. -/
inductive RunError where
  | config (error : ConfigError)
  | filePattern (pattern : String) (error : Glob.PatternError)
  | unwritable (path : String)
  | frontend (path : String) (error : FrontendError)
  | unitsFailed (failed total : Nat)
  | notAnInput (path : String)
  | tooDeep (path : String)
deriving Repr, DecidableEq

def RunError.message : RunError → String
  | config error => error.message.getD "Invalid configuration"
  | filePattern pattern error =>
      "Invalid file pattern \x60" ++ pattern ++ "\x60: " ++ error.message
  | unwritable path => "Failed to write " ++ path
  | frontend path error => "Failed to parse " ++ path ++ ": " ++ error.message
  | unitsFailed failed total =>
      toString failed ++ " of " ++ toString total ++ " headers could not be parsed"
  | notAnInput path => path ++ " is not under the input directory"
  | tooDeep path => path ++ " needs too many instantiations"

end Bindery
