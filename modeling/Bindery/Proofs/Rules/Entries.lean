import Bindery.Proofs.Rules.Skips

/-!
# Entries of rule tables

A table of rules holds two things: for each exact name the first entry of that name, and the regular
expressions in their order.  What it answers about a symbol is what one entry says, the one that
decides.
-/

set_option autoImplicit false

namespace Bindery

section

variable {α β : Type} {xs : List α} {x : α}

/-- The first member of a list with a property. -/
structure IsFirstIn (xs : List α) (p : α → Prop) (x : α) : Prop where
  holds : p x
  place : ∃ front back, xs = front ++ x :: back ∧ ∀ y ∈ front, ¬ p y

theorem IsFirstIn.mem {p : α → Prop} (first : IsFirstIn xs p x) : x ∈ xs := by
  obtain ⟨-, front, back, rfl, -⟩ := first
  exact List.mem_append_right _ List.mem_cons_self

theorem IsFirstIn.imp {p q : α → Prop} (same : ∀ x ∈ xs, p x ↔ q x) (first : IsFirstIn xs p x) :
    IsFirstIn xs q x := by
  have member := first.mem
  obtain ⟨holds, front, back, rfl, before⟩ := first
  refine ⟨(same x member).mp holds, front, back, rfl, fun y early other => ?_⟩
  exact before y early ((same y (List.mem_append_left _ early)).mpr other)

theorem IsFirstIn.congr {p q : α → Prop} (same : ∀ x ∈ xs, p x ↔ q x) :
    IsFirstIn xs p x ↔ IsFirstIn xs q x :=
  ⟨.imp same, .imp fun y member => (same y member).symm⟩

theorem find?_eq_some_iff_isFirstIn {p : α → Bool} :
    xs.find? p = some x ↔ IsFirstIn xs (p · = true) x := by
  rw [List.find?_eq_some_iff_append]
  constructor
  · rintro ⟨holds, front, back, parts, before⟩
    exact ⟨holds, front, back, parts, fun y early => by simpa using before y early⟩
  · rintro ⟨holds, front, back, parts, before⟩
    exact ⟨holds, front, back, parts, fun y early => by simpa using before y early⟩

theorem find?_decide_eq_some_iff {p : α → Prop} [DecidablePred p] :
    xs.find? (fun x => decide (p x)) = some x ↔ IsFirstIn xs p x := by
  rw [find?_eq_some_iff_isFirstIn]
  simp only [decide_eq_true_eq]

theorem IsFirstIn.unique {p : α → Prop} {y : α} (first : IsFirstIn xs p x)
    (other : IsFirstIn xs p y) : x = y := by
  classical
  exact Option.some.inj
    ((find?_decide_eq_some_iff.mpr first).symm.trans (find?_decide_eq_some_iff.mpr other))

theorem findSome?_eq_some_iff_isFirstIn {f : α → Option β} {y : β} :
    xs.findSome? f = some y ↔ ∃ x, IsFirstIn xs (fun x => (f x).isSome = true) x ∧ f x = some y := by
  rw [List.findSome?_eq_some_iff]
  constructor
  · rintro ⟨front, x, back, parts, given, before⟩
    refine ⟨x, ⟨by rw [given]; rfl, front, back, parts, fun y early => ?_⟩, given⟩
    simp [before y early]
  · rintro ⟨x, ⟨-, front, back, parts, before⟩, given⟩
    refine ⟨front, x, back, parts, given, fun y early => ?_⟩
    simpa using before y early

end

namespace SymbolPattern

/-- Whether an entry stands between slashes. -/
def isRegex (entry : String) : Bool :=
  (regexSource? entry).isSome

/-- Whether an entry is the given exact name. -/
def IsExact (entry name : String) : Prop :=
  parse entry = .ok (.exact name)

/-- Whether an entry is a regular expression that matches a name. -/
def IsMatched (entry name : String) : Prop :=
  ∃ compiled, parse entry = .ok (.regex compiled) ∧ compiled.isMatch name = true

theorem isExact_iff {entry name : String} :
    IsExact entry name ↔ isRegex entry = false ∧ entry = name := by
  unfold IsExact parse isRegex
  cases regexSource? entry with
  | none => simp
  | some text =>
      dsimp only
      cases Regex.parse? text <;> simp

theorem isRegex_iff {entry : String} : isRegex entry = true ↔ ¬ IsExact entry entry := by
  rw [isExact_iff]
  simp

theorem isRegex_of_parse {entry : String} {compiled : Regex}
    (parsed : parse entry = .ok (.regex compiled)) : isRegex entry = true := by
  rw [isRegex_iff, IsExact, parsed]
  nofun

theorem isRegex_of_parse_eq_error {entry : String} {invalid : InvalidPattern}
    (parsed : parse entry = .error invalid) : isRegex entry = true := by
  rw [isRegex_iff, IsExact, parsed]
  nofun

end SymbolPattern

namespace RuleTable

/-- The new name that a rule gives to a match of its pattern. -/
def newName? (action : RuleAction) (candidate : String) : SymbolPattern → Option String
  | .exact _ => RuleAction.exactName action
  | .regex regex => RuleAction.regexName regex candidate action

section

variable {α : Type} (source : α → String) (action : SymbolPattern → α → RuleAction)

/-- The table of a list of entries, each read from its text and given its action. -/
def ofEntries (entries : List α) : Except InvalidPattern RuleTable :=
  entries.foldlM
    (fun table entry => do
      let pattern ← SymbolPattern.parse (source entry)
      return table.insert pattern (action pattern entry))
    empty

/-- Whether an entry is about the given exact name. -/
def isFor (name : String) (entry : α) : Bool :=
  !SymbolPattern.isRegex (source entry) && source entry == name

/-- The rule of an entry that is a regular expression. -/
def regexRule? (entry : α) : Option (Regex × RuleAction) :=
  match SymbolPattern.parse (source entry) with
  | .ok (.regex compiled) => some (compiled, action (.regex compiled) entry)
  | _ => none

/-- Why an entry cannot be read. -/
def invalid? (entry : α) : Option InvalidPattern :=
  match SymbolPattern.parse (source entry) with
  | .ok _ => none
  | .error invalid => some invalid

/-- What a list of entries leaves in a table: the action of the first entry for each exact name, and
the rules for regular expressions in their order. -/
structure IsTableOf (entries : List α) (table : RuleTable) : Prop where
  exact : ∀ name, table.exact.lookup name =
    (entries.find? (isFor source name)).map (action (.exact name))
  patterns : table.patterns = entries.filterMap (regexRule? source action)

variable {source action}

theorem isFor_iff {name : String} {entry : α} :
    isFor source name entry = true ↔ SymbolPattern.IsExact (source entry) name := by
  simp [isFor, SymbolPattern.isExact_iff]

theorem isTableOf_empty : IsTableOf source action [] empty :=
  ⟨fun _ => rfl, rfl⟩

theorem IsTableOf.insert {entries : List α} {table : RuleTable}
    (isTable : IsTableOf source action entries table) {entry : α} {pattern : SymbolPattern}
    (parsed : SymbolPattern.parse (source entry) = .ok pattern) :
    IsTableOf source action (entries ++ [entry])
      (table.insert pattern (action pattern entry)) := by
  cases pattern with
  | regex compiled =>
      have noName (name : String) : isFor source name entry = false := by
        simp [isFor, SymbolPattern.isRegex_of_parse parsed]
      refine ⟨fun name => ?_, ?_⟩
      · rw [List.find?_append, List.find?_singleton, noName, if_neg Bool.false_ne_true,
          Option.or_none]
        exact isTable.exact name
      · rw [List.filterMap_append, ← isTable.patterns]
        simp [RuleTable.insert, regexRule?, parsed]
  | exact known =>
      have noRegex : regexRule? source action entry = none := by
        rw [regexRule?, parsed]
      have own (name : String) : isFor source name entry = true ↔ known = name := by
        rw [isFor_iff, SymbolPattern.IsExact, parsed]
        simp
      have patterns : table.patterns =
          (entries ++ [entry]).filterMap (regexRule? source action) := by
        rw [List.filterMap_append, ← isTable.patterns]
        simp [noRegex]
      have held := isTable.exact known
      unfold RuleTable.insert
      dsimp only
      split
      case isTrue listed =>
        -- An earlier entry of the name stays the first one.
        refine ⟨fun name => ?_, patterns⟩
        rw [isTable.exact, List.find?_append, List.find?_singleton]
        split
        case isFalse => rw [Option.or_none]
        case isTrue same =>
          obtain rfl := (own name).mp same
          rw [held, Option.isSome_map] at listed
          rw [Option.or_of_isSome listed]
      case isFalse unlisted =>
        refine ⟨fun name => ?_, patterns⟩
        rw [List.lookup_append, isTable.exact, List.find?_append, List.find?_singleton]
        by_cases same : known = name
        · subst same
          rw [held, Option.isSome_map, Bool.not_eq_true, Option.isSome_eq_false_iff,
            Option.isNone_iff_eq_none] at unlisted
          rw [unlisted, if_pos ((own known).mpr rfl)]
          simp
        · rw [if_neg fun other => same ((own name).mp other)]
          have elsewhere : List.lookup name [(known, action (.exact known) entry)] = none := by
            simp [List.lookup_eq_findSome?, Ne.symm same]
          rw [elsewhere, Option.or_none, Option.or_none]

theorem isTableOf_of_foldlM {entries front : List α} {table rules : RuleTable}
    (isTable : IsTableOf source action front table)
    (reads : entries.foldlM (fun table entry => do
      let pattern ← SymbolPattern.parse (source entry)
      return table.insert pattern (action pattern entry)) table = .ok rules) :
    IsTableOf source action (front ++ entries) rules := by
  induction entries generalizing front table with
  | nil =>
      cases reads
      rwa [List.append_nil]
  | cons entry rest ih =>
      rw [List.foldlM_cons] at reads
      cases parsed : SymbolPattern.parse (source entry) with
      | error invalid =>
          rw [parsed] at reads
          cases reads
      | ok pattern =>
          rw [parsed] at reads
          rw [List.append_cons]
          exact ih (isTable.insert parsed) reads

theorem isTableOf_of_ofEntries {entries : List α} {rules : RuleTable}
    (reads : ofEntries source action entries = .ok rules) :
    IsTableOf source action entries rules :=
  isTableOf_of_foldlM isTableOf_empty reads

/-! ## Which entry decides -/

variable (source) in
/-- Which entry decides about a symbol, and by which of its names.  Exact names go first: of the
names of the symbol the first that has an entry counts, and of its entries the first.  If there is
none, the first regular expression that matches some name counts, with the first name it matches. -/
inductive Decides (entries : List α) (candidates : List String) (entry : α) (name : String) : Prop
  | exact
      (naming : IsFirstIn candidates
        (fun other => other ≠ "" ∧ ∃ entry ∈ entries, SymbolPattern.IsExact (source entry) other) name)
      (first : IsFirstIn entries (fun other => SymbolPattern.IsExact (source other) name) entry)
  | regex
      (unnamed : ∀ other ∈ candidates, other ≠ "" →
        ∀ entry ∈ entries, ¬ SymbolPattern.IsExact (source entry) other)
      (first : IsFirstIn entries
        (fun other => ∃ name ∈ candidates, name ≠ "" ∧ SymbolPattern.IsMatched (source other) name)
        entry)
      (naming : IsFirstIn candidates
        (fun other => other ≠ "" ∧ SymbolPattern.IsMatched (source entry) other) name)

/-- The entry that decides is about the name by which it does. -/
theorem Decides.exists_matches {entries : List α} {candidates : List String} {entry : α}
    {name : String} (decides : Decides source entries candidates entry name) :
    ∃ pattern, SymbolPattern.parse (source entry) = .ok pattern ∧ pattern.Matches name := by
  cases decides with
  | exact naming first => exact ⟨.exact name, first.holds, rfl⟩
  | regex unnamed first naming =>
      obtain ⟨-, compiled, parsed, matched⟩ := naming.holds
      exact ⟨.regex compiled, parsed, matched⟩

theorem Decides.mem {entries : List α} {candidates : List String} {entry : α} {name : String}
    (decides : Decides source entries candidates entry name) : entry ∈ entries ∧ name ∈ candidates := by
  cases decides with
  | exact naming first => exact ⟨first.mem, naming.mem⟩
  | regex unnamed first naming => exact ⟨first.mem, naming.mem⟩

theorem Decides.ne_empty {entries : List α} {candidates : List String} {entry : α} {name : String}
    (decides : Decides source entries candidates entry name) : name ≠ "" := by
  cases decides with
  | exact naming first => exact naming.holds.1
  | regex unnamed first naming => exact naming.holds.1

/-- One entry decides, and by one name. -/
theorem Decides.unique {entries : List α} {candidates : List String} {entry other : α}
    {name otherName : String} (one : Decides source entries candidates entry name)
    (two : Decides source entries candidates other otherName) : entry = other ∧ name = otherName := by
  cases one with
  | exact naming first =>
      cases two with
      | exact namingOther firstOther =>
          obtain rfl := naming.unique namingOther
          exact ⟨first.unique firstOther, rfl⟩
      | regex unnamed =>
          obtain ⟨filled, entry, member, isExact⟩ := naming.holds
          exact absurd isExact (unnamed name naming.mem filled entry member)
  | regex unnamed first naming =>
      cases two with
      | exact namingOther =>
          obtain ⟨filled, entry, member, isExact⟩ := namingOther.holds
          exact absurd isExact (unnamed otherName namingOther.mem filled entry member)
      | regex _ firstOther namingOther =>
          obtain rfl := first.unique firstOther
          exact ⟨rfl, naming.unique namingOther⟩

theorem isFirstIn_named {candidates : List String} {p : String → Prop} {name : String} :
    IsFirstIn (candidates.filter fun candidate => !candidate.isEmpty) p name ↔
      IsFirstIn candidates (fun other => other ≠ "" ∧ p other) name := by
  classical
  rw [← find?_decide_eq_some_iff, ← find?_decide_eq_some_iff, List.find?_filter]
  simp

theorem findSome?_filterMap {β γ : Type} (f : α → Option β) (g : β → Option γ) (xs : List α) :
    (xs.filterMap f).findSome? g = xs.findSome? fun x => (f x).bind g := by
  rw [← List.head?_filterMap, List.filterMap_filterMap, List.head?_filterMap]

theorem mem_exactNames_iff {table : RuleTable} {name : String} :
    name ∈ table.exactNames ↔ (table.exact.lookup name).isSome := by
  simp [exactNames, List.lookup_isSome_iff]

variable (source action) in
/-- What an entry that is a regular expression answers about some names. -/
def regexAnswer? (names : List String) (entry : α) : Option RuleMatch :=
  (regexRule? source action entry).bind fun (regex, action) =>
    (names.find? regex.isMatch).map fun name => ⟨name, RuleAction.regexName regex name action⟩

variable (action) in
theorem regexAnswer?_isSome_iff {entry : α} {candidates : List String} :
    (regexAnswer? source action (candidates.filter fun candidate => !candidate.isEmpty)
        entry).isSome ↔
      ∃ name ∈ candidates, name ≠ "" ∧ SymbolPattern.IsMatched (source entry) name := by
  unfold regexAnswer? regexRule? SymbolPattern.IsMatched
  cases SymbolPattern.parse (source entry) with
  | error invalid => simp
  | ok pattern => cases pattern <;> simp

theorem regexAnswer?_eq_some_iff {entry : α} {candidates : List String} {found : RuleMatch} :
    regexAnswer? source action (candidates.filter fun candidate => !candidate.isEmpty) entry =
        some found ↔
      IsFirstIn candidates
        (fun other => other ≠ "" ∧ SymbolPattern.IsMatched (source entry) other) found.candidate ∧
      ∃ compiled, SymbolPattern.parse (source entry) = .ok (.regex compiled) ∧
        found.renamed = RuleAction.regexName compiled found.candidate
          (action (.regex compiled) entry) := by
  unfold regexAnswer? regexRule? SymbolPattern.IsMatched
  cases SymbolPattern.parse (source entry) with
  | error invalid => simp
  | ok pattern =>
      cases pattern with
      | exact name => simp
      | regex compiled =>
          have first (name : String) :
              (candidates.filter fun candidate => !candidate.isEmpty).find? compiled.isMatch =
                  some name ↔
                IsFirstIn candidates (fun other => other ≠ "" ∧ compiled.isMatch other = true) name :=
            find?_eq_some_iff_isFirstIn.trans isFirstIn_named
          rw [Option.bind_some, Option.map_eq_some_iff]
          simp only [first, Except.ok.injEq, SymbolPattern.regex.injEq, exists_eq_left']
          constructor
          · rintro ⟨name, naming, rfl⟩
            exact ⟨naming, rfl⟩
          · rintro ⟨naming, renamed⟩
            refine ⟨found.candidate, naming, ?_⟩
            rw [← renamed]

namespace IsTableOf

variable {entries : List α} {table : RuleTable} {candidates : List String} {found : RuleMatch}

theorem isSome_lookup_iff (isTable : IsTableOf source action entries table) {name : String} :
    (table.exact.lookup name).isSome ↔
      ∃ entry ∈ entries, SymbolPattern.IsExact (source entry) name := by
  rw [isTable.exact, Option.isSome_map, List.find?_isSome]
  simp only [isFor_iff]

theorem lookupExact_eq_some_iff (isTable : IsTableOf source action entries table) :
    table.lookupExact (candidates.filter fun candidate => !candidate.isEmpty) = some found ↔
      IsFirstIn candidates
        (fun other => other ≠ "" ∧ ∃ entry ∈ entries, SymbolPattern.IsExact (source entry) other)
        found.candidate ∧
      ∃ entry,
        IsFirstIn entries (fun other => SymbolPattern.IsExact (source other) found.candidate) entry ∧
        found.renamed = RuleAction.exactName (action (.exact found.candidate) entry) := by
  have first (name : String) (entry : α) : entries.find? (isFor source name) = some entry ↔
      IsFirstIn entries (fun other => SymbolPattern.IsExact (source other) name) entry :=
    find?_eq_some_iff_isFirstIn.trans (IsFirstIn.congr fun _ _ => isFor_iff)
  rw [lookupExact, findSome?_eq_some_iff_isFirstIn]
  simp only [Option.isSome_map, isTable.isSome_lookup_iff, isFirstIn_named]
  constructor
  · rintro ⟨name, naming, given⟩
    obtain ⟨kept, held, rfl⟩ := Option.map_eq_some_iff.mp given
    rw [isTable.exact] at held
    obtain ⟨entry, isFirst, rfl⟩ := Option.map_eq_some_iff.mp held
    exact ⟨naming, entry, (first name entry).mp isFirst, rfl⟩
  · rintro ⟨naming, entry, isFirst, renamed⟩
    refine ⟨found.candidate, naming, ?_⟩
    rw [isTable.exact, (first _ entry).mpr isFirst, Option.map_some, Option.map_some, ← renamed]

theorem lookupExact_eq_none_iff (isTable : IsTableOf source action entries table) :
    table.lookupExact (candidates.filter fun candidate => !candidate.isEmpty) = none ↔
      ∀ name ∈ candidates, name ≠ "" →
        ∀ entry ∈ entries, ¬ SymbolPattern.IsExact (source entry) name := by
  rw [← Option.not_isSome_iff_eq_none, lookupExact_isSome_iff]
  simp only [mem_exactNames_iff, isTable.isSome_lookup_iff, List.mem_filter, Bool.not_eq_true',
    String.isEmpty_eq_false_iff, not_exists, not_and, and_imp]

theorem lookupPattern_eq_some_iff (isTable : IsTableOf source action entries table) :
    table.lookupPattern (candidates.filter fun candidate => !candidate.isEmpty) = some found ↔
      ∃ entry,
        IsFirstIn entries
          (fun other => ∃ name ∈ candidates, name ≠ "" ∧ SymbolPattern.IsMatched (source other) name)
          entry ∧
        IsFirstIn candidates
          (fun other => other ≠ "" ∧ SymbolPattern.IsMatched (source entry) other) found.candidate ∧
        ∃ compiled, SymbolPattern.parse (source entry) = .ok (.regex compiled) ∧
          found.renamed = RuleAction.regexName compiled found.candidate
            (action (.regex compiled) entry) := by
  rw [lookupPattern, isTable.patterns, findSome?_filterMap, findSome?_eq_some_iff_isFirstIn]
  simp only [← regexAnswer?_isSome_iff action, ← regexAnswer?_eq_some_iff]
  rfl

/-- A table answers with the entry that decides, and with what this entry says of the name. -/
theorem lookup_eq_some_iff (isTable : IsTableOf source action entries table) :
    table.lookup candidates = some found ↔
      ∃ entry, Decides source entries candidates entry found.candidate ∧
        ∃ pattern, SymbolPattern.parse (source entry) = .ok pattern ∧
          found.renamed = newName? (action pattern entry) found.candidate pattern := by
  rw [lookup, Option.or_eq_some_iff, isTable.lookupExact_eq_some_iff,
    isTable.lookupExact_eq_none_iff, isTable.lookupPattern_eq_some_iff]
  constructor
  · rintro (⟨naming, entry, first, renamed⟩ | ⟨unnamed, entry, first, naming, compiled, parsed, renamed⟩)
    · exact ⟨entry, .exact naming first, .exact found.candidate, first.holds, renamed⟩
    · exact ⟨entry, .regex unnamed first naming, .regex compiled, parsed, renamed⟩
  · rintro ⟨entry, decides, pattern, parsed, renamed⟩
    cases decides with
    | exact naming first =>
        cases parsed.symm.trans first.holds
        exact .inl ⟨naming, entry, first, renamed⟩
    | regex unnamed first naming =>
        obtain ⟨-, compiled, isRegex, -⟩ := naming.holds
        cases parsed.symm.trans isRegex
        exact .inr ⟨unnamed, entry, first, naming, compiled, parsed, renamed⟩

end IsTableOf

end

end RuleTable

end Bindery
