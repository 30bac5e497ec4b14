import Bindery.Proofs.Rules.Entries
import Bindery.Proofs.Text.Paths

/-!
# Mentions of skipped names

A filter looks for the exact names of its rules and for their last components.  For names that are
paths of identifiers the last component decides: where the search misses the whole path, or passes
over it because the path overlaps itself, it still finds the last identifier.  Of several words that
are found the least is told, so the order of the rules does not count.
-/

set_option autoImplicit false

namespace Bindery

/-! ## Words in order -/

/-- In a sorted list the first member with a property is the least one. -/
theorem find?_eq_some_iff_of_sorted {words : List String} (sorted : words.Pairwise (· ≤ ·))
    {p : String → Bool} {word : String} :
    words.find? p = some word ↔
      (word ∈ words ∧ p word = true) ∧ ∀ other ∈ words, p other = true → word ≤ other := by
  have least {word : String} (found : words.find? p = some word) :
      (word ∈ words ∧ p word = true) ∧ ∀ other ∈ words, p other = true → word ≤ other := by
    obtain ⟨holds, front, back, rfl, before⟩ := List.find?_eq_some_iff_append.mp found
    refine ⟨⟨List.mem_append_right _ List.mem_cons_self, holds⟩, fun other member given => ?_⟩
    rcases List.mem_append.mp member with early | late
    · have missed := before other early
      rw [given] at missed
      cases missed
    · rcases List.mem_cons.mp late with rfl | behind
      · exact String.le_refl _
      · exact (List.pairwise_cons.mp (List.pairwise_append.mp sorted).2.1).1 other behind
  refine ⟨least, fun ⟨⟨member, holds⟩, below⟩ => ?_⟩
  obtain ⟨first, found⟩ := Option.isSome_iff_exists.mp (List.find?_isSome.mpr ⟨word, member, holds⟩)
  obtain ⟨⟨isIn, given⟩, lower⟩ := least found
  rw [found, String.le_antisymm (lower word member holds) (below first isIn given)]

namespace SymbolFilter

theorem sorted_words_ofRules (rules : RuleTable) : (ofRules rules).words.Pairwise (· ≤ ·) := by
  have trans (a b c : String) (first : decide (a ≤ b) = true) (second : decide (b ≤ c) = true) :
      decide (a ≤ c) = true :=
    decide_eq_true (String.le_trans (of_decide_eq_true first) (of_decide_eq_true second))
  have total (a b : String) : (decide (a ≤ b) || decide (b ≤ a)) = true := by
    simpa using String.le_total a b
  have sorted := List.pairwise_mergeSort trans total (rules.exactNames.flatMap wordsOf)
  simp only [decide_eq_true_eq] at sorted
  exact sorted.sublist (eraseReps_sublist _)

theorem mentionedIn_eq_some_iff {rules : RuleTable} {spelling word : String} :
    (ofRules rules).mentionedIn spelling = some word ↔
      (word ∈ (ofRules rules).words ∧ Text.containsWord spelling word = true) ∧
        ∀ other ∈ (ofRules rules).words, Text.containsWord spelling other = true → word ≤ other :=
  find?_eq_some_iff_of_sorted (sorted_words_ofRules rules)

/-- Which exact names there are decides, not where they stand in a table. -/
theorem mentionedIn_congr {rules other : RuleTable}
    (same : ∀ name, name ∈ rules.exactNames ↔ name ∈ other.exactNames) (spelling : String) :
    (ofRules rules).mentionedIn spelling = (ofRules other).mentionedIn spelling := by
  refine Option.ext fun word => ?_
  simp only [mentionedIn_eq_some_iff, mem_words_ofRules, same]

/-! ## Paths that are skipped -/

theorem mem_wordsOf_iff {name last : String} {scopes : List String}
    (path : Text.IsPath name scopes last) {word : String} :
    word ∈ wordsOf name ↔ word = name ∨ word = last := by
  unfold wordsOf
  dsimp only
  rw [path.simpleName_eq]
  split
  case isFalse => simp
  case isTrue alone =>
    rcases Bool.or_eq_true_iff.mp alone with empty | same
    · exact absurd (String.isEmpty_iff.mp empty) path.identifier.nonempty
    · rw [eq_of_beq same, List.mem_singleton, or_self]

/-- Whether a list of entries has the given exact name. -/
def SkipsName (entries : List String) (name : String) : Prop :=
  ∃ entry ∈ entries, SymbolPattern.IsExact entry name

/-- Whether a word stands for a skipped name, as the whole of it or as its last component, and is
found in a spelling. -/
def Mentions (entries : List String) (spelling word : String) : Prop :=
  (∃ name scopes last, SkipsName entries name ∧ Text.IsPath name scopes last ∧
      (word = name ∨ word = last)) ∧
    Text.findWord spelling word ≠ []

section

variable {entries : List String} {rules : RuleTable}

theorem mem_exactNames_of_skips (reads : RuleTable.skips entries = .ok rules) (name : String) :
    name ∈ rules.exactNames ↔ SkipsName entries name :=
  @RuleTable.lists_iff_of_skips entries rules (.exact name) reads

theorem mentions_iff (reads : RuleTable.skips entries = .ok rules)
    (paths : ∀ name, SkipsName entries name → ∃ scopes last, Text.IsPath name scopes last)
    {spelling word : String} :
    Mentions entries spelling word ↔
      word ∈ (ofRules rules).words ∧ Text.containsWord spelling word = true := by
  rw [Mentions, Text.containsWord_iff_findWord_ne_nil, mem_words_ofRules]
  refine and_congr_left fun _ => ?_
  constructor
  · rintro ⟨name, scopes, last, skipped, path, isWord⟩
    exact ⟨name, (mem_exactNames_of_skips reads name).mpr skipped,
      (mem_wordsOf_iff path).mpr isWord⟩
  · rintro ⟨name, listed, isWord⟩
    have skipped := (mem_exactNames_of_skips reads name).mp listed
    obtain ⟨scopes, last, path⟩ := paths name skipped
    exact ⟨name, scopes, last, skipped, path, (mem_wordsOf_iff path).mp isWord⟩

theorem isSome_mentionedIn_iff (reads : RuleTable.skips entries = .ok rules)
    (paths : ∀ name, SkipsName entries name → ∃ scopes last, Text.IsPath name scopes last)
    {spelling : String} :
    ((ofRules rules).mentionedIn spelling).isSome ↔
      ∃ name scopes last, SkipsName entries name ∧ Text.IsPath name scopes last ∧
        last ∈ Text.words spelling := by
  rw [mentionedIn_isSome_iff]
  simp only [← mentions_iff reads paths]
  constructor
  · rintro ⟨word, ⟨name, scopes, last, skipped, path, isWord⟩, found⟩
    refine ⟨name, scopes, last, skipped, path, ?_⟩
    rw [← Text.containsWord_iff_findWord_ne_nil] at found
    rw [← Text.containsWord_iff_mem_words path.identifier]
    rcases isWord with rfl | rfl
    · exact path.containsWord_last found
    · exact found
  · rintro ⟨name, scopes, last, skipped, path, stands⟩
    refine ⟨last, ⟨name, scopes, last, skipped, path, .inr rfl⟩, ?_⟩
    rwa [← Text.containsWord_iff_findWord_ne_nil, Text.containsWord_iff_mem_words path.identifier]

/-- A spelling mentions a skipped name if and only if one of its words is the last component of such
a name; the word that is told is the least of the names and last components that are found, and any
table of the same names, in whatever order it holds them, tells the same. -/
theorem skipped_mentions_are_exact (reads : RuleTable.skips entries = .ok rules)
    (paths : ∀ name, SkipsName entries name → ∃ scopes last, Text.IsPath name scopes last)
    (spelling : String) :
    (((ofRules rules).mentionedIn spelling).isSome ↔
      ∃ name scopes last, SkipsName entries name ∧ Text.IsPath name scopes last ∧
        last ∈ Text.words spelling) ∧
    (∀ word, (ofRules rules).mentionedIn spelling = some word ↔
      Mentions entries spelling word ∧ ∀ other, Mentions entries spelling other → word ≤ other) ∧
    ∀ table : RuleTable, (∀ name, name ∈ table.exactNames ↔ SkipsName entries name) →
      (ofRules table).mentionedIn spelling = (ofRules rules).mentionedIn spelling := by
  refine ⟨isSome_mentionedIn_iff reads paths, fun word => ?_, fun table same => ?_⟩
  · simp only [mentionedIn_eq_some_iff, mentions_iff reads paths, and_imp]
  · refine mentionedIn_congr (fun name => ?_) spelling
    rw [same, mem_exactNames_of_skips reads]

end

/-- A path that overlaps itself, another path, and a regular expression. -/
def overlapEntries : List String :=
  ["a::a", "cv::UMat", "/^cv::ocl::/"]

theorem skipsName_overlapEntries {name : String} (skipped : SkipsName overlapEntries name) :
    name = "a::a" ∨ name = "cv::UMat" := by
  obtain ⟨entry, member, isExact⟩ := skipped
  obtain ⟨plain, rfl⟩ := SymbolPattern.isExact_iff.mp isExact
  rcases List.mem_cons.mp member with rfl | member
  · exact .inl rfl
  · rcases List.mem_cons.mp member with rfl | member
    · exact .inr rfl
    · obtain rfl := List.mem_singleton.mp member
      have regex : SymbolPattern.isRegex "/^cv::ocl::/" = true := by decide
      rw [regex] at plain
      cases plain

theorem isPath_overlap : Text.IsPath "a::a" ["a"] "a" :=
  ⟨by decide, by decide⟩

theorem isPath_qualified : Text.IsPath "cv::UMat" ["cv"] "UMat" :=
  ⟨by decide, by decide⟩

theorem paths_overlapEntries (name : String) (skipped : SkipsName overlapEntries name) :
    ∃ scopes last, Text.IsPath name scopes last := by
  rcases skipsName_overlapEntries skipped with rfl | rfl
  · exact ⟨_, _, isPath_overlap⟩
  · exact ⟨_, _, isPath_qualified⟩

theorem last_of_overlapEntries {name last : String} {scopes : List String}
    (skipped : SkipsName overlapEntries name) (path : Text.IsPath name scopes last) :
    name = "a::a" ∧ last = "a" ∨ name = "cv::UMat" ∧ last = "UMat" := by
  have simple := path.simpleName_eq
  rcases skipsName_overlapEntries skipped with rfl | rfl
  · exact .inl ⟨rfl, simple.symm.trans isPath_overlap.simpleName_eq⟩
  · exact .inr ⟨rfl, simple.symm.trans isPath_qualified.simpleName_eq⟩

/-- The search passes over the second `a::a` with the first one, which is no whole word. -/
theorem overlapped_path_is_mentioned :
    ∃ rules, RuleTable.skips overlapEntries = .ok rules ∧
      Text.findWord "xa::a::a" "a::a" = [] ∧
      (ofRules rules).mentionedIn "xa::a::a" = some "a" ∧
      (ofRules rules).mentionedIn "const cv::UMatData*" = none := by
  have read : (RuleTable.skips overlapEntries).toOption.isSome = true := by decide +kernel
  cases reads : RuleTable.skips overlapEntries with
  | error invalid =>
      rw [reads] at read
      cases read
  | ok rules =>
      have found (spelling : String) :=
        skipped_mentions_are_exact reads paths_overlapEntries spelling
      have skipped : SkipsName overlapEntries "a::a" :=
        ⟨"a::a", by decide, SymbolPattern.isExact_iff.mpr ⟨by decide, rfl⟩⟩
      refine ⟨rules, rfl, by decide +kernel, ?_, ?_⟩
      · refine ((found "xa::a::a").2.1 "a").mpr ⟨⟨?_, by decide +kernel⟩, ?_⟩
        · exact ⟨"a::a", ["a"], "a", skipped, isPath_overlap, .inr rfl⟩
        · rintro other ⟨⟨name, scopes, last, known, path, isWord⟩, stands⟩
          rcases last_of_overlapEntries known path with ⟨rfl, rfl⟩ | ⟨rfl, rfl⟩ <;>
            rcases isWord with rfl | rfl <;> revert stands <;> decide +kernel
      · rw [← Option.not_isSome_iff_eq_none, (found "const cv::UMatData*").1]
        rintro ⟨name, scopes, last, known, path, stands⟩
        rw [← Text.containsWord_iff_mem_words path.identifier] at stands
        rcases last_of_overlapEntries known path with ⟨rfl, rfl⟩ | ⟨rfl, rfl⟩ <;> revert stands <;>
          decide +kernel

end SymbolFilter

end Bindery
