import Bindery.Rules.Pattern

/-!
# Rule tables

Rules on symbols: each skips the symbols it matches or gives them a new name.  Exact names go
before regular expressions; of several rules for one exact name the first counts, and regular
expressions are tried in the order in which they were written.
-/

set_option autoImplicit false

namespace Bindery

/-- A configured new name. -/
structure RenameRule where
  source : String
  target : String
deriving Repr, DecidableEq

/-- What a rule does with a symbol. -/
inductive RuleAction where
  | skip
  | rename (target : String)
deriving Repr, DecidableEq

/-- A rule applied: the name it matched and the new name, if it gives one. -/
structure RuleMatch where
  candidate : String
  renamed : Option String
deriving Repr, DecidableEq

/-- Rules for exact names, no name twice, and rules for regular expressions. -/
structure RuleTable where
  exact : List (String × RuleAction)
  patterns : List (Regex × RuleAction)
deriving Repr, DecidableEq

namespace RuleTable

def empty : RuleTable :=
  ⟨[], []⟩

/-- Adds a rule behind the others; a second rule for an exact name has no effect. -/
def insert (table : RuleTable) (pattern : SymbolPattern) (action : RuleAction) : RuleTable :=
  match pattern with
  | .exact name =>
      if (table.exact.lookup name).isSome then table
      else { table with exact := table.exact ++ [(name, action)] }
  | .regex regex => { table with patterns := table.patterns ++ [(regex, action)] }

def skips (entries : List String) : Except InvalidPattern RuleTable :=
  entries.foldlM
    (fun table entry => do return table.insert (← SymbolPattern.parse entry) .skip) empty

def renameAction (pattern : SymbolPattern) (target : String) : RuleAction :=
  match pattern with
  | .exact _ => .rename target
  | .regex _ => .rename (Text.replacementTemplate target)

def renames (rules : List RenameRule) : Except InvalidPattern RuleTable :=
  rules.foldlM
    (fun table rule => do
      let pattern ← SymbolPattern.parse rule.source
      return table.insert pattern (renameAction pattern rule.target))
    empty

def isEmpty (table : RuleTable) : Bool :=
  table.exact.isEmpty && table.patterns.isEmpty

def exactNames (table : RuleTable) : List String :=
  table.exact.map (·.1)

/-- The new name that an action gives to an exact match. -/
def RuleAction.exactName : RuleAction → Option String
  | .skip => none
  | .rename target => some target

/-- The new name that an action gives to a match of a regular expression. -/
def RuleAction.regexName (regex : Regex) (candidate : String) : RuleAction → Option String
  | .skip => none
  | .rename target => some (regex.replaceFirst candidate target)

/-- The rule for the first of the candidates that has an exact one. -/
def lookupExact (table : RuleTable) (candidates : List String) : Option RuleMatch :=
  candidates.findSome? fun candidate =>
    (table.exact.lookup candidate).map fun action =>
      ⟨candidate, RuleAction.exactName action⟩

/-- The first regular expression that matches one of the candidates. -/
def lookupPattern (table : RuleTable) (candidates : List String) : Option RuleMatch :=
  table.patterns.findSome? fun (regex, action) =>
    (candidates.find? regex.isMatch).map fun candidate =>
      ⟨candidate, RuleAction.regexName regex candidate action⟩

/-- The rule that applies to a symbol with the given names; empty names do not count. -/
def lookup (table : RuleTable) (candidates : List String) : Option RuleMatch :=
  let named := candidates.filter fun candidate => !candidate.isEmpty
  (table.lookupExact named).or (table.lookupPattern named)

end RuleTable

end Bindery
