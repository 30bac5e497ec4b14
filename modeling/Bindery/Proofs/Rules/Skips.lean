import Bindery.Proofs.Repetitions
import Bindery.Rules.Filter

/-!
# Tables of skip rules

A table of skip rules lists the patterns of its entries, whatever their order.  So more entries skip
more symbols, and find more of them mentioned, and no fewer.
-/

set_option autoImplicit false

namespace Bindery

/-- Whether a pattern speaks about the symbol of the given name. -/
def SymbolPattern.Matches (name : String) : SymbolPattern → Prop
  | .exact other => name = other
  | .regex compiled => compiled.isMatch name = true

namespace RuleTable

/-- Whether a table has a rule for a pattern. -/
def Lists (table : RuleTable) : SymbolPattern → Prop
  | .exact name => name ∈ table.exactNames
  | .regex regex => regex ∈ table.patterns.map (·.1)

theorem lists_insert_iff {table : RuleTable} {pattern other : SymbolPattern} {action : RuleAction} :
    (table.insert pattern action).Lists other ↔ table.Lists other ∨ other = pattern := by
  cases pattern with
  | regex regex => cases other <;> simp [insert, Lists, exactNames]
  | exact name =>
      unfold insert
      dsimp only
      split
      case isFalse => cases other <;> simp [Lists, exactNames]
      case isTrue known =>
        refine ⟨.inl, fun listed => listed.elim id ?_⟩
        rintro rfl
        obtain ⟨entry, member, same⟩ := List.lookup_isSome_iff.mp known
        rw [eq_of_beq same]
        exact List.mem_map_of_mem member

theorem not_lists_empty {pattern : SymbolPattern} : ¬ empty.Lists pattern := by
  cases pattern <;> simp [Lists, empty, exactNames]

section

variable {α : Type} {source : α → String} {action : SymbolPattern → α → RuleAction}

theorem lists_iff_of_foldlM {entries : List α} {table rules : RuleTable} {pattern : SymbolPattern}
    (reads : entries.foldlM (fun table entry => do
      let pattern ← SymbolPattern.parse (source entry)
      return table.insert pattern (action pattern entry)) table = .ok rules) :
    rules.Lists pattern ↔
      table.Lists pattern ∨
        ∃ entry ∈ entries, SymbolPattern.parse (source entry) = .ok pattern := by
  induction entries generalizing table with
  | nil =>
      cases reads
      simp
  | cons entry rest ih =>
      rw [List.foldlM_cons] at reads
      cases parsed : SymbolPattern.parse (source entry) with
      | error invalid =>
          rw [parsed] at reads
          cases reads
      | ok first =>
          rw [parsed] at reads
          rw [ih reads, lists_insert_iff, List.exists_mem_cons_iff, parsed, or_assoc]
          simp [eq_comm]

end

theorem lists_iff_of_skips {entries : List String} {rules : RuleTable} {pattern : SymbolPattern}
    (reads : skips entries = .ok rules) :
    rules.Lists pattern ↔ ∃ entry ∈ entries, SymbolPattern.parse entry = .ok pattern := by
  rw [@lists_iff_of_foldlM String id (fun _ _ => .skip) entries empty rules pattern reads]
  exact or_iff_right not_lists_empty

theorem lookupExact_isSome_iff {table : RuleTable} {candidates : List String} :
    (table.lookupExact candidates).isSome ↔
      ∃ candidate ∈ candidates, candidate ∈ table.exactNames := by
  simp [lookupExact, exactNames, List.findSome?_isSome_iff]

theorem lookupPattern_isSome_iff {table : RuleTable} {candidates : List String} :
    (table.lookupPattern candidates).isSome ↔
      ∃ candidate ∈ candidates, ∃ regex ∈ table.patterns.map (·.1),
        regex.isMatch candidate = true := by
  simp only [lookupPattern, List.findSome?_isSome_iff, Option.isSome_map, List.find?_isSome]
  constructor
  · rintro ⟨rule, member, candidate, named, found⟩
    exact ⟨candidate, named, rule.1, List.mem_map_of_mem member, found⟩
  · rintro ⟨candidate, named, regex, listed, found⟩
    obtain ⟨rule, member, rfl⟩ := List.mem_map.mp listed
    exact ⟨rule, member, candidate, named, found⟩

/-- A rule applies if a name that is not empty matches one of the patterns. -/
theorem lookup_isSome_iff {table : RuleTable} {candidates : List String} :
    (table.lookup candidates).isSome ↔
      ∃ candidate ∈ candidates, candidate.isEmpty = false ∧
        ∃ pattern, table.Lists pattern ∧ pattern.Matches candidate := by
  have either : (table.lookup candidates).isSome ↔
      (table.lookupExact (candidates.filter fun candidate => !candidate.isEmpty)).isSome ∨
        (table.lookupPattern (candidates.filter fun candidate => !candidate.isEmpty)).isSome := by
    simp [lookup]
  rw [either, lookupExact_isSome_iff, lookupPattern_isSome_iff]
  simp only [List.mem_filter, Bool.not_eq_true']
  constructor
  · rintro (⟨candidate, ⟨member, named⟩, listed⟩ |
      ⟨candidate, ⟨member, named⟩, regex, listed, found⟩)
    · exact ⟨candidate, member, named, .exact candidate, listed, rfl⟩
    · exact ⟨candidate, member, named, .regex regex, listed, found⟩
  · rintro ⟨candidate, member, named, pattern, listed, applies⟩
    cases pattern with
    | exact name =>
        obtain rfl : candidate = name := applies
        exact .inl ⟨candidate, ⟨member, named⟩, listed⟩
    | regex regex => exact .inr ⟨candidate, ⟨member, named⟩, regex, listed, applies⟩

end RuleTable

namespace SymbolFilter

theorem mem_words_ofRules {rules : RuleTable} {word : String} :
    word ∈ (ofRules rules).words ↔ ∃ name ∈ rules.exactNames, word ∈ wordsOf name := by
  simp [ofRules, mem_eraseReps]

theorem mentionedIn_isSome_iff {filter : SymbolFilter} {spelling : String} :
    (filter.mentionedIn spelling).isSome ↔
      ∃ word ∈ filter.words, Text.containsWord spelling word = true := by
  simp [mentionedIn]

theorem exists_mem_wordsOf_iff {name spelling : String} :
    (∃ word ∈ wordsOf name, Text.containsWord spelling word = true) ↔
      Text.containsWord spelling name = true ∨
        Text.containsWord spelling (Text.simpleName name) = true := by
  unfold wordsOf
  dsimp only
  split
  case isTrue alone =>
    simp only [List.mem_singleton, exists_eq_left, iff_self_or]
    intro contains
    rcases Bool.or_eq_true_iff.mp alone with empty | same
    · rw [String.isEmpty_iff.mp empty] at contains
      cases contains
    · rwa [eq_of_beq same] at contains
  case isFalse => simp

theorem mentionedIn_isSome_iff_of_skips {entries : List String} {rules : RuleTable}
    (reads : RuleTable.skips entries = .ok rules) {spelling : String} :
    ((ofRules rules).mentionedIn spelling).isSome ↔
      ∃ entry ∈ entries, ∃ name, SymbolPattern.parse entry = .ok (.exact name) ∧
        (Text.containsWord spelling name = true ∨
          Text.containsWord spelling (Text.simpleName name) = true) := by
  have listed (name : String) : name ∈ rules.exactNames ↔
      ∃ entry ∈ entries, SymbolPattern.parse entry = .ok (.exact name) :=
    @RuleTable.lists_iff_of_skips entries rules (.exact name) reads
  simp only [mentionedIn_isSome_iff, mem_words_ofRules, listed, ← exists_mem_wordsOf_iff]
  constructor
  · rintro ⟨word, ⟨name, ⟨entry, member, parsed⟩, isWord⟩, stands⟩
    exact ⟨entry, member, name, parsed, word, isWord, stands⟩
  · rintro ⟨entry, member, name, parsed, word, isWord, stands⟩
    exact ⟨word, ⟨name, ⟨entry, member, parsed⟩, isWord⟩, stands⟩

/-- The filter for one name without scopes. -/
theorem ofRules_of_simple {name : String} (simple : wordsOf name = [name]) :
    ofRules ⟨[(name, .skip)], []⟩ = ⟨⟨[(name, .skip)], []⟩, [name]⟩ := by
  change SymbolFilter.mk _ (([name].flatMap wordsOf).mergeSort _).eraseReps = _
  rw [List.flatMap_singleton, simple, List.mergeSort_singleton]
  rfl

theorem ofRules_empty : ofRules .empty = ⟨.empty, []⟩ := by
  change SymbolFilter.mk _ (([] : List String).mergeSort _).eraseReps = _
  rw [List.mergeSort_nil]
  rfl

/-- Whether a filter skips all symbols, and finds all mentions, that another one does. -/
structure Covers (more filter : SymbolFilter) : Prop where
  lookup : ∀ candidates, (filter.lookup candidates).isSome → (more.lookup candidates).isSome
  mentions : ∀ spelling, (filter.mentionedIn spelling).isSome → (more.mentionedIn spelling).isSome

theorem covers_of_subset {entries more : List String} {rules moreRules : RuleTable}
    (reads : RuleTable.skips entries = .ok rules)
    (readsMore : RuleTable.skips more = .ok moreRules) (included : entries ⊆ more) :
    (ofRules moreRules).Covers (ofRules rules) := by
  have lists {pattern : SymbolPattern} (listed : rules.Lists pattern) :
      moreRules.Lists pattern := by
    obtain ⟨entry, member, parsed⟩ := (RuleTable.lists_iff_of_skips reads).mp listed
    exact (RuleTable.lists_iff_of_skips readsMore).mpr ⟨entry, included member, parsed⟩
  constructor
  · intro candidates found
    obtain ⟨candidate, member, named, pattern, listed, applies⟩ :=
      RuleTable.lookup_isSome_iff.mp found
    exact RuleTable.lookup_isSome_iff.mpr
      ⟨candidate, member, named, pattern, lists listed, applies⟩
  · intro spelling found
    obtain ⟨word, member, stands⟩ := mentionedIn_isSome_iff.mp found
    obtain ⟨name, listed, isWord⟩ := mem_words_ofRules.mp member
    have known : moreRules.Lists (.exact name) := @lists (.exact name) listed
    exact mentionedIn_isSome_iff.mpr ⟨word, mem_words_ofRules.mpr ⟨name, known, isWord⟩, stands⟩

end SymbolFilter

end Bindery
