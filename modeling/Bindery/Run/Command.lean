import Bindery.Run.Write

/-!
# Commands

What the program can be asked on its command line, and what it answers.  The answers are computed
like everything else in a run, on its files as a value.
-/

set_option autoImplicit false

namespace Bindery

/-- What to show of one header. -/
inductive DumpFormat where
  | fragments
  | implementation
  | declaration
  | builders
deriving Repr, DecidableEq

def DumpFormat.ofName? : String → Option DumpFormat
  | "fragments" => some .fragments
  | "cpp" => some .implementation
  | "hpp" => some .declaration
  | "ipp" => some .builders
  | _ => none

/-- What the program is asked to do. -/
inductive Command where
  | generate
  | check
  | dump (header : String) (format : DumpFormat)
deriving Repr, DecidableEq

/-- What the program prints and, if it fails in the end, why. -/
structure CommandResult where
  output : String
  complaints : List String
  failure : Option String
deriving Repr, DecidableEq

namespace CommandResult

/-- The result of a command that went well. -/
def success (output : String) : CommandResult :=
  ⟨output, [], none⟩

end CommandResult

namespace Command

/-- A unit without failures, in the answer to a check. -/
def checkLine (unit : UnitBindings) : String :=
  unit.relativePath ++ ": OK (" ++ toString unit.fragments.length ++ " fragments)\n"

/-- A header that could not be parsed, in the answer to a check. -/
def failureLine (failure : UnitFailure) : String :=
  failure.input.relative ++ ": " ++ failure.error.message

def checkResult (generation : Generation) : CommandResult where
  output := String.join (generation.project.units.map checkLine)
  complaints := generation.failures.map failureLine
  failure :=
    if generation.failures.isEmpty then none
    else some (toString generation.failures.length ++ " headers failed to parse")

def dumpResult (header : String) (unit : UnitBindings) : DumpFormat → CommandResult
  | .fragments => .success (reprStr unit ++ "\n")
  | .implementation => .success (Code.unitSource unit)
  | .declaration => .success (Code.unitHeader unit)
  | .builders =>
      if unit.hasBuilders then .success (Code.unitBuilders unit)
      else ⟨"", [header ++ ": no class templates"], none⟩

def perform (job : Job) : Command → Run CommandResult
  | generate => do
      let summary ← job.run
      return .success
        ("Generated " ++ toString summary.units ++ " units, " ++ toString summary.written.length
          ++ " files in " ++ job.config.project.output ++ "\n")
  | check => return checkResult (← job.generate)
  | dump header format => do
      let input ← job.inputAt header
      return dumpResult header (← job.generateInput input) format

end Command

/-- The arguments of the program as far as they have been read; words are neither options nor
values of options. -/
structure Arguments where
  config : Option String
  verbose : Bool
  format : Option DumpFormat
  words : List String
deriving Repr, DecidableEq

namespace Arguments

def none : Arguments :=
  ⟨.none, false, .none, []⟩

/-- The value of an option that is written in one argument with its name. -/
def value? (name argument : String) : Option String :=
  (Chars.dropPrefix? (name ++ "=").toList argument.toList).map String.ofList

/-- Whether an argument is written like an option. -/
def isOption (argument : String) : Bool :=
  argument.toList.head? == some '-' && argument != "-"

/-- Takes the configuration file, which may be given once. -/
def withConfig (arguments : Arguments) (path : String) : Option Arguments :=
  if arguments.config.isSome then .none else some { arguments with config := some path }

/-- Takes the format, which may be given once. -/
def withFormat (arguments : Arguments) (name : String) : Option Arguments := do
  let format ← DumpFormat.ofName? name
  if arguments.format.isSome then .none else some { arguments with format := some format }

def read : Arguments → List String → Option Arguments
  | arguments, [] => some arguments
  | arguments, "-v" :: rest => read { arguments with verbose := true } rest
  | arguments, "--verbose" :: rest => read { arguments with verbose := true } rest
  | arguments, "-c" :: path :: rest => do read (← arguments.withConfig path) rest
  | arguments, "--config" :: path :: rest => do read (← arguments.withConfig path) rest
  | arguments, "--format" :: name :: rest => do read (← arguments.withFormat name) rest
  | arguments, argument :: rest =>
      match value? "--config" argument, value? "--format" argument with
      | some path, _ => do read (← arguments.withConfig path) rest
      | .none, some name => do read (← arguments.withFormat name) rest
      | .none, .none =>
          if isOption argument then .none
          else read { arguments with words := arguments.words ++ [argument] } rest

/-- The command that the words give; only a dump has a format. -/
def command? (arguments : Arguments) : Option Command :=
  match arguments.words, arguments.format with
  | ["generate"], .none => some .generate
  | ["check"], .none => some .check
  | ["dump", header], format => some (.dump header (format.getD .implementation))
  | _, _ => .none

end Arguments

/-- A whole command line. -/
structure Invocation where
  config : String
  verbose : Bool
  command : Command
deriving Repr, DecidableEq

namespace Invocation

/-- The configuration file of an invocation that names none. -/
def defaultConfig : String := "bindery.toml"

/-- How the program is used. -/
def usage : String :=
  "Usage: bindery [-c FILE] [-v] (generate | check | dump HEADER [--format FORMAT])\n"
    ++ "FORMAT is fragments, cpp, hpp or ipp\n"

/-- Reads a command line. -/
def parse? (arguments : List String) : Option Invocation := do
  let arguments ← Arguments.none.read arguments
  some ⟨arguments.config.getD defaultConfig, arguments.verbose, ← arguments.command?⟩

end Invocation

end Bindery
