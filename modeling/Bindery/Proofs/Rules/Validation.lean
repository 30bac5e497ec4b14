import Bindery.Binding.Context
import Bindery.Proofs.Attempts
import Bindery.Proofs.Rules.Order

/-!
# Checking rules in advance

The check of a configuration and the reading of its rules go through the same entries in the same
order: the skips, then the sources of the renames.  So an entry that cannot be read is found when
the configuration is loaded, and a configuration that passes the check gives tables of rules.
-/

set_option autoImplicit false

namespace Bindery

namespace SymbolPattern

/-- Whether an entry is a regular expression that does not compile. -/
def IsInvalid (entry : String) : Prop :=
  ∃ source, regexSource? entry = some source ∧ Regex.parse? source = none

theorem parse_eq_error_iff {entry : String} {invalid : InvalidPattern} :
    parse entry = .error invalid ↔ IsInvalid entry ∧ invalid = ⟨entry⟩ := by
  unfold parse IsInvalid
  cases regexSource? entry with
  | none => simp
  | some source =>
      dsimp only
      cases compiles : Regex.parse? source with
      | some compiled => simp [compiles]
      | none => simp [compiles, eq_comm]

end SymbolPattern

/-- The entries of a configuration that are patterns of symbols, in the order in which they are
read. -/
def SymbolsConfig.entries (symbols : SymbolsConfig) : List String :=
  symbols.skip ++ symbols.rename.map RenameRule.source

/-- The first entry of a configuration that does not compile. -/
def SymbolsConfig.IsFirstInvalid (symbols : SymbolsConfig) (entry : String) : Prop :=
  IsFirstIn symbols.entries SymbolPattern.IsInvalid entry

/-! ## Entries that cannot be read -/

theorem RuleTable.invalid?_eq_some_iff {α : Type} {source : α → String} {entry : α}
    {invalid : InvalidPattern} :
    invalid? source entry = some invalid ↔
      SymbolPattern.IsInvalid (source entry) ∧ invalid = ⟨source entry⟩ := by
  rw [← SymbolPattern.parse_eq_error_iff, invalid?]
  cases SymbolPattern.parse (source entry) <;> simp

theorem SymbolsConfig.findSome?_invalid?_iff {symbols : SymbolsConfig} {invalid : InvalidPattern} :
    symbols.entries.findSome? (RuleTable.invalid? id) = some invalid ↔
      ∃ entry, symbols.IsFirstInvalid entry ∧ invalid = ⟨entry⟩ := by
  have same (entry : String) :
      (RuleTable.invalid? id entry).isSome = true ↔ SymbolPattern.IsInvalid entry := by
    simp [Option.isSome_iff_exists, RuleTable.invalid?_eq_some_iff]
  rw [findSome?_eq_some_iff_isFirstIn]
  refine exists_congr fun entry => ?_
  rw [IsFirstInvalid, IsFirstIn.congr fun entry _ => same entry, RuleTable.invalid?_eq_some_iff]
  exact and_congr_right fun first => and_iff_right first.holds

/-! ## Reading rules -/

theorem BindOptions.ofConfig_eq_error_iff {symbols : SymbolsConfig} {invalid : InvalidPattern} :
    BindOptions.ofConfig symbols = .error invalid ↔
      symbols.entries.findSome? (RuleTable.invalid? id) = some invalid := by
  have sources : (symbols.rename.map RenameRule.source).findSome? (RuleTable.invalid? id) =
      symbols.rename.findSome? (RuleTable.invalid? RenameRule.source) := by
    rw [List.findSome?_map]
    rfl
  rw [SymbolsConfig.entries, List.findSome?_append, sources, BindOptions.ofConfig,
    RuleTable.skips_eq_ofEntries, RuleTable.renames_eq_ofEntries]
  cases skips : RuleTable.ofEntries id (fun _ _ => .skip) symbols.skip with
  | error first =>
      rw [(RuleTable.ofEntries_eq_error_iff _).mp skips, Option.some_or]
      simp [bind, Except.bind]
  | ok table =>
      have none : symbols.skip.findSome? (RuleTable.invalid? id) = none := by
        refine Option.eq_none_iff_forall_ne_some.mpr fun first found => ?_
        rw [(RuleTable.ofEntries_eq_error_iff _).mpr found] at skips
        cases skips
      rw [none, Option.none_or, ← RuleTable.ofEntries_eq_error_iff
        fun pattern rule => RuleTable.renameAction pattern rule.target]
      cases RuleTable.ofEntries RenameRule.source
        (fun pattern rule => RuleTable.renameAction pattern rule.target) symbols.rename <;>
        simp [bind, Except.bind, pure, Except.pure]

/-! ## Checking entries -/

namespace Config

theorem checkPattern_eq_error_iff {entry : String} {error : ConfigError} :
    checkPattern entry = .error error ↔
      (Option.map ConfigError.invalidPattern ∘ RuleTable.invalid? id) entry = some error := by
  rw [checkPattern, Function.comp_apply, RuleTable.invalid?, id]
  cases SymbolPattern.parse entry <;> simp

theorem forM_checkPattern_eq_error_iff {entries : List String} {error : ConfigError} :
    entries.forM checkPattern = .error error ↔
      ∃ invalid, entries.findSome? (RuleTable.invalid? id) = some invalid ∧
        error = .invalidPattern invalid := by
  rw [forM_eq_error_iff fun _ _ => checkPattern_eq_error_iff, ← List.map_findSome?,
    Option.map_eq_some_iff]
  simp only [eq_comm]

theorem forM_checkRename {rules : List RenameRule} (targets : ∀ rule ∈ rules, rule.target ≠ "") :
    rules.forM checkRename = (rules.map RenameRule.source).forM checkPattern := by
  induction rules with
  | nil => rfl
  | cons rule rest ih =>
      obtain ⟨target, others⟩ := List.forall_mem_cons.mp targets
      have checked : checkRename rule = checkPattern rule.source := by
        rw [checkRename, if_neg (by simpa using target)]
      change (checkRename rule >>= fun _ => rest.forM checkRename) =
        (checkPattern rule.source >>= fun _ => (rest.map RenameRule.source).forM checkPattern)
      rw [checked, ih others]

section

variable {config : Config}

/-- Whether a configuration has a name, a pattern of files and a target for each rename. -/
structure IsFilledIn (config : Config) : Prop where
  named : Text.trim config.project.name ≠ ""
  listed : config.files.patterns ≠ []
  targets : ∀ rule ∈ config.symbols.rename, rule.target ≠ ""

theorem validate_eq_forM (filled : config.IsFilledIn) :
    config.validate = config.symbols.entries.forM checkPattern := by
  have named : (Text.trim config.project.name).isEmpty = false := by simpa using filled.named
  have listed : config.files.patterns.isEmpty = false := by simpa using filled.listed
  rw [validate, named, listed, forM_checkRename filled.targets, SymbolsConfig.entries]
  exact (List.forM_append ..).symm

theorem validate_eq_error_iff (filled : config.IsFilledIn) {error : ConfigError} :
    config.validate = .error error ↔
      ∃ entry, config.symbols.IsFirstInvalid entry ∧ error = .invalidPattern ⟨entry⟩ := by
  rw [validate_eq_forM filled, forM_checkPattern_eq_error_iff]
  simp only [SymbolsConfig.findSome?_invalid?_iff]
  constructor
  · rintro ⟨invalid, ⟨entry, first, rfl⟩, rfl⟩
    exact ⟨entry, first, rfl⟩
  · rintro ⟨entry, first, rfl⟩
    exact ⟨⟨entry⟩, ⟨entry, first, rfl⟩, rfl⟩

theorem isFilledIn_of_validate (accepted : config.validate = .ok ()) : config.IsFilledIn := by
  unfold validate at accepted
  cases named : (Text.trim config.project.name).isEmpty with
  | true =>
      rw [named] at accepted
      cases accepted
  | false =>
      cases listed : config.files.patterns.isEmpty with
      | true =>
          rw [named, listed] at accepted
          cases accepted
      | false =>
          rw [named, listed] at accepted
          obtain ⟨_, -, renames⟩ := except_bind_eq_ok.mp accepted
          refine ⟨by simpa using named, by simpa using listed, fun rule member empty => ?_⟩
          have checked := forM_eq_ok_iff.mp renames rule member
          rw [checkRename, if_pos (by simpa using empty)] at checked
          cases checked

end

/-- A project that skips a class and renames the getters. -/
def getterConfig : Config :=
  ⟨⟨"shapes", "include", "ext"⟩, defaultFiles, [],
    ⟨["shapes::Hidden"], [⟨"/^get_(.+)$/", "\\1"⟩], [], none⟩⟩

/-- The same project with a skip entry and a rename that do not compile. -/
def unclosedConfig : Config :=
  { getterConfig with symbols := ⟨["shapes::Hidden", "/[a/"], [⟨"/(b/", "c"⟩], [], none⟩ }

theorem unclosedConfig_isFirstInvalid : unclosedConfig.symbols.IsFirstInvalid "/[a/" := by
  refine ⟨⟨"[a", by decide, by decide⟩, ["shapes::Hidden"], ["/(b/"], rfl, ?_⟩
  rintro entry early ⟨source, regex, -⟩
  cases List.mem_singleton.mp early
  cases (show SymbolPattern.regexSource? "shapes::Hidden" = none by decide).symm.trans regex

end Config

end Bindery
