import Bindery.Rules.Table
import Bindery.Text.Scope

/-!
# Skipped symbols

The symbols that the configuration skips, by name and by mention: a type that mentions a skipped
symbol as a whole word is skipped with it.
-/

set_option autoImplicit false

namespace Bindery

/-- Skip rules, and the words by which a spelling mentions one of their exact names. -/
structure SymbolFilter where
  rules : RuleTable
  words : List String
deriving Repr, DecidableEq

namespace SymbolFilter

/-- The words that stand for a skipped name: the name itself and its last component. -/
def wordsOf (name : String) : List String :=
  let simple := Text.simpleName name
  if simple.isEmpty || simple == name then [name] else [name, simple]

/-- The filter of a table of skip rules; its words are sorted. -/
def ofRules (rules : RuleTable) : SymbolFilter :=
  ⟨rules, (((rules.exactNames.flatMap wordsOf).mergeSort fun a b => a ≤ b).eraseReps)⟩

def lookup (filter : SymbolFilter) (candidates : List String) : Option RuleMatch :=
  filter.rules.lookup candidates

/-- The first word of a skipped symbol that stands in a spelling. -/
def mentionedIn (filter : SymbolFilter) (spelling : String) : Option String :=
  filter.words.find? (Text.containsWord spelling)

end SymbolFilter

end Bindery
