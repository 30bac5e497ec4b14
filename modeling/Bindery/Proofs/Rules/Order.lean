import Bindery.Proofs.Rules.Renames

/-!
# The order of rules

Entries of a table may change places as long as the regular expressions keep their order and the
entries of each exact name keep theirs: the table answers as before.
-/

set_option autoImplicit false

namespace Bindery

namespace RuleTable

section

variable {α : Type} {source : α → String} {action : SymbolPattern → α → RuleAction}

variable (source) in
/-- Entries in another order, in which the regular expressions come one after the other as before,
and so do the entries of each exact name. -/
structure Reorders (entries other : List α) : Prop where
  perm : entries.Perm other
  regexes : entries.filter (SymbolPattern.isRegex ∘ source) =
    other.filter (SymbolPattern.isRegex ∘ source)
  names : ∀ name, entries.filter (isFor source name) = other.filter (isFor source name)

theorem foldlM_eq_error_iff {entries : List α} {table : RuleTable} {invalid : InvalidPattern} :
    entries.foldlM (fun table entry => do
      let pattern ← SymbolPattern.parse (source entry)
      return table.insert pattern (action pattern entry)) table = .error invalid ↔
      entries.findSome? (invalid? source) = some invalid := by
  induction entries generalizing table with
  | nil => simp [pure, Except.pure]
  | cons entry rest ih =>
      rw [List.foldlM_cons, List.findSome?_cons, invalid?]
      cases SymbolPattern.parse (source entry) with
      | error other =>
          change Except.error other = Except.error invalid ↔ some other = some invalid
          rw [Except.error.injEq, Option.some.injEq]
      | ok pattern => exact ih

variable (action) in
theorem ofEntries_eq_error_iff {entries : List α} {invalid : InvalidPattern} :
    ofEntries source action entries = .error invalid ↔
      entries.findSome? (invalid? source) = some invalid :=
  foldlM_eq_error_iff

/-- What a function finds only in some members it finds in these alone. -/
theorem filterMap_filter_of_isSome {β : Type} {f : α → Option β} {p : α → Bool}
    (some : ∀ x, (f x).isSome → p x = true) (xs : List α) :
    (xs.filter p).filterMap f = xs.filterMap f := by
  rw [List.filterMap_filter]
  refine List.filterMap_congr fun x _ => ?_
  split
  case isTrue => rfl
  case isFalse other =>
    exact (Option.not_isSome_iff_eq_none.mp fun given => other (some x given)).symm

namespace Reorders

variable {entries other : List α}

theorem findSome?_invalid? (reorders : Reorders source entries other) :
    entries.findSome? (invalid? source) = other.findSome? (invalid? source) := by
  have some (entry : α) (given : (invalid? source entry).isSome) :
      (SymbolPattern.isRegex ∘ source) entry = true := by
    unfold invalid? at given
    cases parsed : SymbolPattern.parse (source entry) with
    | ok pattern =>
        rw [parsed] at given
        cases given
    | error invalid => exact SymbolPattern.isRegex_of_parse_eq_error parsed
  rw [← List.head?_filterMap, ← List.head?_filterMap, ← filterMap_filter_of_isSome some,
    reorders.regexes, filterMap_filter_of_isSome some]

theorem filterMap_regexRule? (reorders : Reorders source entries other) :
    entries.filterMap (regexRule? source action) = other.filterMap (regexRule? source action) := by
  have some (entry : α) (given : (regexRule? source action entry).isSome) :
      (SymbolPattern.isRegex ∘ source) entry = true := by
    unfold regexRule? at given
    split at given
    case h_1 compiled parsed => exact SymbolPattern.isRegex_of_parse parsed
    case h_2 => cases given
  rw [← filterMap_filter_of_isSome some, reorders.regexes, filterMap_filter_of_isSome some]

theorem find?_isFor (reorders : Reorders source entries other) (name : String) :
    entries.find? (isFor source name) = other.find? (isFor source name) := by
  rw [← List.head?_filter, reorders.names name, List.head?_filter]

theorem lookup_eq (reorders : Reorders source entries other) {table rules : RuleTable}
    (isTable : IsTableOf source action entries table)
    (isOther : IsTableOf source action other rules) (candidates : List String) :
    table.lookup candidates = rules.lookup candidates := by
  have exact (name : String) : table.exact.lookup name = rules.exact.lookup name := by
    rw [isTable.exact, isOther.exact, reorders.find?_isFor]
  have patterns : table.patterns = rules.patterns := by
    rw [isTable.patterns, isOther.patterns, reorders.filterMap_regexRule?]
  simp only [lookup, lookupExact, lookupPattern, exact, patterns]

/-- The tables of the two orders answer alike, and an entry that cannot be read spoils both. -/
theorem map_lookup_ofEntries (reorders : Reorders source entries other)
    (candidates : List String) :
    (ofEntries source action entries).map (·.lookup candidates) =
      (ofEntries source action other).map (·.lookup candidates) := by
  cases reads : ofEntries source action entries with
  | error invalid =>
      have first := (ofEntries_eq_error_iff action).mp reads
      rw [reorders.findSome?_invalid?, ← ofEntries_eq_error_iff action] at first
      rw [first]
  | ok table =>
      cases readsOther : ofEntries source action other with
      | error invalid =>
          have first := (ofEntries_eq_error_iff action).mp readsOther
          rw [← reorders.findSome?_invalid?, ← ofEntries_eq_error_iff action,
            reads] at first
          cases first
      | ok rules =>
          exact congrArg Except.ok (reorders.lookup_eq (isTableOf_of_ofEntries reads)
            (isTableOf_of_ofEntries readsOther) candidates)

end Reorders

end

/-! ## Skips and renames -/

theorem skips_eq_ofEntries : skips = ofEntries id fun _ _ => .skip :=
  rfl

theorem lookup_skips_eq_some_iff {entries : List String} {table : RuleTable}
    (reads : skips entries = .ok table) {candidates : List String} {found : RuleMatch} :
    table.lookup candidates = some found ↔
      (∃ entry, Decides id entries candidates entry found.candidate) ∧ found.renamed = none := by
  rw [(isTableOf_of_ofEntries (skips_eq_ofEntries ▸ reads)).lookup_eq_some_iff]
  constructor
  · rintro ⟨entry, decides, pattern, -, renamed⟩
    refine ⟨⟨entry, decides⟩, ?_⟩
    cases pattern <;> exact renamed
  · rintro ⟨⟨entry, decides⟩, renamed⟩
    obtain ⟨pattern, parsed, -⟩ := decides.exists_matches
    refine ⟨entry, decides, pattern, parsed, ?_⟩
    cases pattern <;> exact renamed

/-- Two names for one exact name, between two regular expressions. -/
def fooRules : List RenameRule :=
  [⟨"/^Foo$/", "Baz"⟩, ⟨"Foo", "Bar"⟩, ⟨"Foo", "Qux"⟩, ⟨"/o/", "0"⟩]

/-- The same rules, those for the exact name in front. -/
def movedRules : List RenameRule :=
  [⟨"Foo", "Bar"⟩, ⟨"Foo", "Qux"⟩, ⟨"/^Foo$/", "Baz"⟩, ⟨"/o/", "0"⟩]

theorem fooRules_reorders : Reorders RenameRule.source fooRules movedRules := by
  refine ⟨by decide, by decide, fun name => ?_⟩
  by_cases same : name = "Foo"
  · subst same
    decide
  · have first : SymbolPattern.isRegex "/^Foo$/" = true := by decide
    have second : SymbolPattern.isRegex "/o/" = true := by decide
    simp [fooRules, movedRules, isFor, first, second, Ne.symm same]

theorem skips_reorders : Reorders id ["/^Foo$/", "Foo"] ["Foo", "/^Foo$/"] := by
  refine ⟨by decide, by decide, fun name => ?_⟩
  have regex : SymbolPattern.isRegex "/^Foo$/" = true := by decide
  simp [List.filter_cons, isFor, regex]

end RuleTable

end Bindery
