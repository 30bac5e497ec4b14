import Bindery.Run.Command

/-!
# The program

Reads the command line and the configuration.  The program is built without a front-end for
headers; whoever has one carries out the command on a job of their own.
-/

set_option autoImplicit false

namespace Bindery

namespace Program

/-- How a fault of the configuration is told. -/
def configMessage : ConfigError → String
  | .unreadable => "Failed to read config file"
  | .malformed => "Failed to parse TOML config"
  | .invalidPattern pattern => "Invalid symbol pattern \x60" ++ pattern.entry ++ "\x60"
  | error => error.message.getD ""

/-- Why a command cannot be carried out with the given configuration file: a fault of the
configuration, or else that there is no front-end to start. -/
def obstacle (path : String) (contents : Option ByteArray) : String :=
  match Config.ofFile path contents with
  | .error error => configMessage error
  | .ok _ => FrontendError.noIndex.message

/-- The contents of a file, if it can be read. -/
def contents? (path : String) : IO (Option ByteArray) := do
  try
    return some (← IO.FS.readBinFile path)
  catch _ => return none

end Program

end Bindery

/-- Runs the program: 2 says that the command line is wrong, 1 that the command failed. -/
def main (arguments : List String) : IO UInt32 := do
  match Bindery.Invocation.parse? arguments with
  | none =>
      IO.eprint Bindery.Invocation.usage
      return 2
  | some invocation =>
      let contents ← Bindery.Program.contents? invocation.config
      IO.eprintln ("Error: " ++ Bindery.Program.obstacle invocation.config contents)
      return 1
