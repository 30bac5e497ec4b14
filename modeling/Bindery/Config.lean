import Bindery.Path
import Bindery.Rules.Table
import Bindery.Toml.Parser

/-!
# Configuration

What a run binds and how: the project, the headers, the arguments of the front-end and the rules
for symbols.  A configuration is read from TOML, in which unknown keys do not count.
-/

set_option autoImplicit false

namespace Bindery

/-- The project's name, the directory of its headers and the directory of its output. -/
structure ProjectConfig where
  name : String
  input : String
  output : String
deriving Repr, DecidableEq

/-- The patterns of the headers to bind and of those to leave out. -/
structure FilesConfig where
  patterns : List String
  skip : List String
deriving Repr, DecidableEq

/-- Skip and rename entries, the macros that mark exported declarations, and the header that
generated units include in place of their own. -/
structure SymbolsConfig where
  skip : List String
  rename : List RenameRule
  exportMacros : List String
  headerInclude : Option String
deriving Repr, DecidableEq

/-- A whole configuration. -/
structure Config where
  project : ProjectConfig
  files : FilesConfig
  clangArgs : List String
  symbols : SymbolsConfig
deriving Repr, DecidableEq

/-- Why a configuration is refused. -/
inductive ConfigError where
  | unreadable
  | malformed
  | invalidPattern (pattern : InvalidPattern)
  | blankName
  | noFilePattern
  | emptyTarget (source : String)
deriving Repr, DecidableEq

/-- The text that tells why a configuration did not pass its validation. -/
def ConfigError.validationMessage : ConfigError → Option String
  | blankName => some "project.name must not be empty"
  | noFilePattern => some "files.match must list at least one pattern"
  | emptyTarget source => some ("rename of \x60" ++ source ++ "\x60 has an empty target")
  | unreadable => none
  | malformed => none
  | invalidPattern _ => none

/-- The text of an error, as far as it is the configuration's own. -/
def ConfigError.message : ConfigError → Option String
  | invalidPattern pattern => some pattern.entry
  | error => error.validationMessage.map ("Config validation error: " ++ ·)

namespace Config

/-- Without patterns of its own a project binds every header with this pattern. -/
def defaultPatterns : List String :=
  ["**/*.hpp"]

/-- The files of a project that does not speak of them. -/
def defaultFiles : FilesConfig :=
  ⟨defaultPatterns, []⟩

/-- The rules of a project without rules. -/
def defaultSymbols : SymbolsConfig :=
  ⟨[], [], [], none⟩

/-- The fields of a record: by key in a table, by position in an array.  A date has none. -/
def fields? : Toml.Item → Option (String → Nat → Option Toml.Item)
  | .table _ entries => some fun key _ => entries.lookup key
  | .array items => some fun _ position => items[position]?
  | .tables elements =>
      some fun _ position => elements[position]?.map fun entries => Toml.Item.table .header entries
  | .datetime _ => some fun _ _ => none
  | _ => none

def string? : Toml.Item → Option String
  | .string text => some text
  | _ => none

def elements? : Toml.Item → Option (List Toml.Item)
  | .array items => some items
  | .tables elements => some (elements.map fun entries => Toml.Item.table .header entries)
  | _ => none

/-- The texts of an array of strings. -/
def strings? (item : Toml.Item) : Option (List String) := do
  (← elements? item).mapM string?

/-- The value of a field that may be missing. -/
def optional {α : Type} (read : Toml.Item → Option α) (default : α) : Option Toml.Item → Option α
  | none => some default
  | some item => read item

def project? (item : Toml.Item) : Option ProjectConfig := do
  let field ← fields? item
  some ⟨← (field "name" 0).bind string?, ← (field "input" 1).bind string?,
    ← (field "output" 2).bind string?⟩

/-- Reads the choice of files. -/
def files? (item : Toml.Item) : Option FilesConfig := do
  let field ← fields? item
  some ⟨← optional strings? defaultPatterns (field "match" 0),
    ← optional strings? [] (field "skip" 1)⟩

/-- Reads the arguments of the front-end. -/
def clangArgs? (item : Toml.Item) : Option (List String) := do
  let field ← fields? item
  optional strings? [] (field "args" 0)

/-- Reads a rename entry. -/
def renameRule? (item : Toml.Item) : Option RenameRule := do
  let field ← fields? item
  some ⟨← (field "from" 0).bind string?, ← (field "to" 1).bind string?⟩

/-- Reads the rules for symbols. -/
def symbols? (item : Toml.Item) : Option SymbolsConfig := do
  let field ← fields? item
  some ⟨← optional strings? [] (field "skip" 0),
    ← optional (fun item => do (← elements? item).mapM renameRule?) [] (field "rename" 1),
    ← optional strings? [] (field "export_macros" 2),
    ← optional (fun item => (string? item).map some) none (field "include" 3)⟩

/-- The configuration that a document writes. -/
def ofToml? (entries : Toml.Entries) : Option Config := do
  some ⟨← (entries.lookup "project").bind project?,
    ← optional files? defaultFiles (entries.lookup "files"),
    ← optional clangArgs? [] (entries.lookup "clang"),
    ← optional symbols? defaultSymbols (entries.lookup "symbols")⟩

/-- Checks that an entry is an exact name or a valid regular expression. -/
def checkPattern (entry : String) : Except ConfigError Unit :=
  match SymbolPattern.parse entry with
  | .ok _ => .ok ()
  | .error pattern => .error (.invalidPattern pattern)

def checkRename (rule : RenameRule) : Except ConfigError Unit :=
  if rule.target.isEmpty then .error (.emptyTarget rule.source) else checkPattern rule.source

/-- Checks names, patterns and rules; the first fault counts. -/
def validate (config : Config) : Except ConfigError Unit := do
  if (Text.trim config.project.name).isEmpty then throw .blankName
  if config.files.patterns.isEmpty then throw .noFilePattern
  config.symbols.skip.forM checkPattern
  config.symbols.rename.forM checkRename

/-- Reads and checks the text of a configuration. -/
def parse (text : String) : Except ConfigError Config := do
  match (Toml.parse? text).bind ofToml? with
  | none => throw .malformed
  | some config =>
      config.validate
      return config

/-- The configuration with its directories taken relative to `base`. -/
def relativeTo (base : String) (config : Config) : Config :=
  { config with
    project :=
      { config.project with
        input := Path.join base config.project.input
        output := Path.join base config.project.output } }

/-- The configuration in the file at `path` with the given contents, if it can be read. -/
def ofFile (path : String) (contents : Option ByteArray) : Except ConfigError Config := do
  match contents.bind String.fromUTF8? with
  | none => throw .unreadable
  | some text => return (← parse text).relativeTo ((Path.parent? path).getD ".")

end Config

end Bindery
