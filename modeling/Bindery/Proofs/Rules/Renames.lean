import Bindery.Name.Namer
import Bindery.Proofs.Rules.Entries

/-!
# Tables of rename rules

A table of rename rules gives a name to a symbol if and only if one of the rules is about it, and
the name is one that such a rule gives.
-/

set_option autoImplicit false

namespace Bindery

/-- Which names a rule gives to the symbol of a name. -/
inductive RenameRule.Gives (rule : RenameRule) : String → String → Prop
  | exact {name : String} (parsed : SymbolPattern.parse rule.source = .ok (.exact name)) :
      Gives rule name rule.target
  | regex {compiled : Regex} {candidate : String}
      (parsed : SymbolPattern.parse rule.source = .ok (.regex compiled))
      (found : compiled.isMatch candidate = true) :
      Gives rule candidate
        (compiled.replaceFirst candidate (Text.replacementTemplate rule.target))

theorem RenameRule.exists_gives_iff {rule : RenameRule} {candidate : String} :
    (∃ new, rule.Gives candidate new) ↔
      ∃ pattern, SymbolPattern.parse rule.source = .ok pattern ∧ pattern.Matches candidate := by
  constructor
  · rintro ⟨new, parsed | ⟨parsed, found⟩⟩
    · exact ⟨_, parsed, rfl⟩
    · exact ⟨_, parsed, found⟩
  · rintro ⟨pattern, parsed, applies⟩
    cases pattern with
    | exact name =>
        obtain rfl : candidate = name := applies
        exact ⟨_, .exact parsed⟩
    | regex compiled => exact ⟨_, .regex parsed applies⟩

namespace RuleTable

theorem lists_iff_of_renames {rules : List RenameRule} {table : RuleTable} {pattern : SymbolPattern}
    (reads : renames rules = .ok table) :
    table.Lists pattern ↔ ∃ rule ∈ rules, SymbolPattern.parse rule.source = .ok pattern := by
  rw [@lists_iff_of_foldlM RenameRule (·.source) (fun pattern rule => renameAction pattern rule.target)
    rules empty table pattern reads]
  exact or_iff_right not_lists_empty

theorem renames_eq_ofEntries :
    renames = ofEntries RenameRule.source fun pattern rule => renameAction pattern rule.target :=
  rfl

theorem gives_iff {rule : RenameRule} {candidate new : String} :
    rule.Gives candidate new ↔
      ∃ pattern, SymbolPattern.parse rule.source = .ok pattern ∧ pattern.Matches candidate ∧
        newName? (renameAction pattern rule.target) candidate pattern = some new := by
  constructor
  · rintro (parsed | ⟨parsed, found⟩)
    · exact ⟨.exact candidate, parsed, rfl, rfl⟩
    · exact ⟨.regex _, parsed, found, rfl⟩
  · rintro ⟨pattern, parsed, applies, given⟩
    cases pattern with
    | exact name =>
        obtain rfl : candidate = name := applies
        cases given
        exact .exact parsed
    | regex compiled =>
        cases given
        exact .regex parsed applies

theorem lookup_renames_eq_some_iff {rules : List RenameRule} {table : RuleTable}
    (reads : renames rules = .ok table) {candidates : List String} {found : RuleMatch} :
    table.lookup candidates = some found ↔
      ∃ rule, Decides RenameRule.source rules candidates rule found.candidate ∧
        ∃ new, rule.Gives found.candidate new ∧ found.renamed = some new := by
  rw [(isTableOf_of_ofEntries (renames_eq_ofEntries ▸ reads)).lookup_eq_some_iff]
  refine exists_congr fun rule => and_congr_right fun decides => ?_
  obtain ⟨pattern, parsed, applies⟩ := decides.exists_matches
  constructor
  · rintro ⟨same, parsedSame, renamed⟩
    cases parsed.symm.trans parsedSame
    obtain ⟨new, given⟩ : ∃ new,
        newName? (renameAction pattern rule.target) found.candidate pattern = some new := by
      cases pattern <;> exact ⟨_, rfl⟩
    exact ⟨new, gives_iff.mpr ⟨pattern, parsed, applies, given⟩, renamed.trans given⟩
  · rintro ⟨new, gives, renamed⟩
    obtain ⟨same, parsedSame, -, given⟩ := gives_iff.mp gives
    exact ⟨same, parsedSame, renamed.trans given.symm⟩

end RuleTable

namespace Namer

variable {rules : List RenameRule} {namer : Namer} {simple qualified : String}

theorem renamed_eq_some_iff (reads : RuleTable.renames rules = .ok namer.renames) {new : String} :
    namer.renamed simple qualified = some new ↔
      ∃ rule name, RuleTable.Decides RenameRule.source rules [qualified, simple] rule name ∧
        rule.Gives name new := by
  rw [renamed, Option.bind_eq_some_iff]
  simp only [RuleTable.lookup_renames_eq_some_iff reads]
  constructor
  · rintro ⟨found, ⟨rule, decides, same, gives, renamed⟩, given⟩
    cases renamed.symm.trans given
    exact ⟨rule, found.candidate, decides, gives⟩
  · rintro ⟨rule, name, decides, gives⟩
    exact ⟨⟨name, some new⟩, ⟨rule, decides, new, gives, rfl⟩, rfl⟩

theorem exists_gives_of_renamed (reads : RuleTable.renames rules = .ok namer.renames)
    {new : String} (renamed : namer.renamed simple qualified = some new) :
    ∃ rule ∈ rules, ∃ candidate ∈ [qualified, simple], candidate ≠ "" ∧
      rule.Gives candidate new := by
  obtain ⟨rule, candidate, decides, gives⟩ := (renamed_eq_some_iff reads).mp renamed
  exact ⟨rule, decides.mem.1, candidate, decides.mem.2, decides.ne_empty, gives⟩

/-- A symbol has a configured name if and only if one of the rules is about it. -/
theorem renamed_isSome_iff (reads : RuleTable.renames rules = .ok namer.renames) :
    (namer.renamed simple qualified).isSome ↔
      ∃ rule ∈ rules, ∃ candidate ∈ [qualified, simple], candidate ≠ "" ∧
        ∃ new, rule.Gives candidate new := by
  constructor
  · intro renamed
    obtain ⟨new, same⟩ := Option.isSome_iff_exists.mp renamed
    obtain ⟨rule, listed, candidate, member, filled, gives⟩ := exists_gives_of_renamed reads same
    exact ⟨rule, listed, candidate, member, filled, new, gives⟩
  · rintro ⟨rule, listed, candidate, member, filled, gives⟩
    obtain ⟨pattern, parsed, applies⟩ := RenameRule.exists_gives_iff.mp gives
    have looked : (namer.renames.lookup [qualified, simple]).isSome := by
      refine RuleTable.lookup_isSome_iff.mpr ⟨candidate, member, ?_, pattern, ?_, applies⟩
      · rwa [← Bool.not_eq_true, String.isEmpty_iff]
      · exact (RuleTable.lists_iff_of_renames reads).mpr ⟨rule, listed, parsed⟩
    -- Every rule of the table renames, so the one that decides gives a name.
    obtain ⟨found, same⟩ := Option.isSome_iff_exists.mp looked
    obtain ⟨other, decides, new, given, named⟩ :=
      (RuleTable.lookup_renames_eq_some_iff reads).mp same
    rw [(renamed_eq_some_iff reads).mpr ⟨other, found.candidate, decides, given⟩]
    rfl

end Namer

end Bindery
