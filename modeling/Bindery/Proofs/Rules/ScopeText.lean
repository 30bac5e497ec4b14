import Bindery.Name.Namer
import Bindery.Proofs.Name.Case
import Bindery.Proofs.Rules.Renames
import Bindery.Proofs.Rules.Replacement

/-!
# Scopes in Ruby names

A regular expression is tried on the qualified name of a symbol before the simple one, and of the
name that it matches only the match gives way.  So a scope that the match leaves over stands in the
Ruby name, where no convention, no exact rule and no group would put it.
-/

set_option autoImplicit false

namespace Bindery

open Chars (NamePiece namePieces fillGroups)

/-! ## Characters of a replaced text -/

namespace Chars

theorem mem_of_plain_mem_namePieces {cs : List Char} {c : Char}
    (member : NamePiece.plain c ∈ namePieces cs) : c ∈ cs := by
  fun_induction namePieces cs with
  | case1 => cases member
  | case2 d =>
      cases List.mem_singleton.mp member
      exact List.mem_cons_self
  | case3 d digit rest refers ih =>
      rcases List.mem_cons.mp member with same | later
      · cases same
      · exact List.mem_cons_of_mem _ (List.mem_cons_of_mem _ (ih later))
  | case4 d next rest other ih =>
      rcases List.mem_cons.mp member with same | later
      · cases same
        exact List.mem_cons_self
      · exact List.mem_cons_of_mem _ (ih later)

theorem mem_fillGroups_iff {group : Nat → Option (List Char)} {pieces : List NamePiece} {c : Char} :
    c ∈ fillGroups group pieces ↔
      .plain c ∈ pieces ∨ ∃ digit text, .group digit ∈ pieces ∧
        group (NamePiece.index digit) = some text ∧ c ∈ text := by
  rw [fillGroups, List.mem_flatMap]
  constructor
  · rintro ⟨piece, member, inside⟩
    cases piece with
    | plain d =>
        obtain rfl := List.mem_singleton.mp inside
        exact .inl member
    | group digit =>
        cases took : group (NamePiece.index digit) with
        | none => simp [NamePiece.fill, took] at inside
        | some text =>
            refine .inr ⟨digit, text, member, took, ?_⟩
            simpa [NamePiece.fill, took] using inside
  · rintro (member | ⟨digit, text, member, took, inside⟩)
    · exact ⟨.plain c, member, List.mem_singleton_self c⟩
    · exact ⟨.group digit, member, by simpa [NamePiece.fill, took] using inside⟩

/-- Only the digit zero stands for the group of the whole match. -/
theorem index_eq_zero_iff {digit : Char} (isDigit : digit.isDigit = true) :
    NamePiece.index digit = 0 ↔ digit = '0' := by
  constructor
  · intro zero
    have low : '0'.toNat ≤ digit.toNat := by
      change (decide _ && decide _) = true at isDigit
      exact UInt32.le_iff_toNat_le.mp (of_decide_eq_true (Bool.and_eq_true_iff.mp isDigit).1)
    exact Char.toNat_inj.mp (Nat.le_antisymm (Nat.sub_eq_zero_iff_le.mp zero) low)
  · rintro rfl
    rfl

end Chars

namespace Regex

section Search

variable {program : Array Instruction} {text : Array Char} {width : Nat}

/-- What every step of a search keeps is true of the branch that ends it. -/
theorem follow_keeps {P : Branch → Prop}
    (step : ∀ branch next, P branch → branch.next program text = some next → ∀ later ∈ next, P later)
    {fuel : Nat} {tried : Array Bool} {branches : List Branch} {found : Branch}
    (start : ∀ branch ∈ branches, P branch)
    (ended : follow program text width fuel tried branches = some found) : P found := by
  fun_induction follow program text width fuel tried branches with
  | case1 => cases ended
  | case2 => cases ended
  | case3 fuel tried branch later mark wasTried ih =>
      exact ih (List.forall_mem_cons.mp start).2 ended
  | case4 fuel tried branch later mark isNew stops =>
      cases ended
      exact start _ List.mem_cons_self
  | case5 fuel tried branch later mark isNew next goesOn ih =>
      obtain ⟨here, others⟩ := List.forall_mem_cons.mp start
      refine ih (fun other member => ?_) ended
      rcases List.mem_append.mp member with isNext | isLater
      · exact step branch next here goesOn other isNext
      · exact others other isLater

namespace Branch

theorem saved_next (unsaved : ∀ slot, .save slot ∉ program) {branch later : Branch}
    {ways : List Branch} (goesOn : branch.next program text = some ways) (member : later ∈ ways) :
    later.saved = branch.saved := by
  unfold next at goesOn
  split at goesOn
  case h_5 slot stands => exact absurd (Array.mem_of_getElem? stands) (unsaved slot)
  -- any other instruction hands on what has been saved
  all_goals grind

end Branch

/-- What a program without saving instructions finds has nothing saved. -/
theorem saved_eq_nil_of_unsaved {regex : Regex} {text : List Char} {found : Match}
    (unsaved : ∀ slot, .save slot ∉ regex.node.program) (isFound : regex.find? text = some found) :
    found.saved = [] := by
  obtain ⟨start, -, isMatch⟩ := List.exists_of_findSome?_eq_some isFound
  obtain ⟨branch, ended, rfl⟩ := Option.map_eq_some_iff.mp isMatch
  refine follow_keeps (P := fun branch => branch.saved = []) ?_ ?_ ended
  · intro earlier next nothing goesOn later member
    rw [Branch.saved_next unsaved goesOn member, nothing]
  · rintro branch member
    rw [List.mem_singleton.mp member]

end Search

/-- Whether no group of a match in a text holds a character; the whole match is no such group. -/
def GroupsAvoid (regex : Regex) (c : Char) (text : List Char) : Prop :=
  ∀ found, regex.find? text = some found → ∀ index part, index ≠ 0 →
    found.group? text index = some part → c ∉ part

/-- Whether a new name for a match in a text has a character from the text otherwise than by a
group: beside the match, or in the match if the new name repeats the whole of it. -/
def Match.Leaves (found : Match) (text : List Char) (target : String) (c : Char) : Prop :=
  c ∈ text.take found.start ∨ c ∈ text.drop found.stop ∨
    .group '0' ∈ namePieces target.toList ∧ c ∈ (text.take found.stop).drop found.start

variable {regex : Regex} {found : Match} {c : Char}

theorem Match.mem_of_group? {text part : List Char} {index : Nat}
    (took : found.group? text index = some part) (inside : c ∈ part) : c ∈ text := by
  unfold group? at took
  split at took
  case isTrue =>
    cases took
    exact List.mem_of_mem_take (List.mem_of_mem_drop inside)
  case isFalse =>
    split at took
    case h_1 =>
      cases took
      exact List.mem_of_mem_take (List.mem_of_mem_drop inside)
    case h_2 => cases took

theorem groupsAvoid_of_not_mem {text : List Char} (clear : c ∉ text) :
    regex.GroupsAvoid c text :=
  fun _ _ _ _ _ took inside => clear (Match.mem_of_group? took inside)

theorem groupsAvoid_of_unsaved (unsaved : ∀ slot, .save slot ∉ regex.node.program)
    (text : List Char) : regex.GroupsAvoid c text := by
  intro found isFirst index part isGroup took
  rw [Match.group?, if_neg isGroup, saved_eq_nil_of_unsaved unsaved isFirst] at took
  cases took

theorem Match.not_leaves_of_not_mem {text : List Char} (clear : c ∉ text) (target : String) :
    ¬ found.Leaves text target c := by
  rintro (front | back | ⟨-, whole⟩)
  · exact clear (List.mem_of_mem_take front)
  · exact clear (List.mem_of_mem_drop back)
  · exact clear (List.mem_of_mem_take (List.mem_of_mem_drop whole))

theorem toList_replaceFirst {text : String} (isFirst : regex.find? text.toList = some found)
    (target : String) :
    (regex.replaceFirst text (Text.replacementTemplate target)).toList =
      text.toList.take found.start ++
        fillGroups (found.group? text.toList) (namePieces target.toList) ++
        text.toList.drop found.stop := by
  rw [replaceFirst, isFirst]
  dsimp only
  rw [String.toList_ofList, Text.replacementTemplate, String.toList_ofList,
    Chars.expandReplacement_replacementTemplate]

theorem mem_replaceFirst_iff {text target : String} (isFirst : regex.find? text.toList = some found)
    (plain : c ∉ target.toList) (avoid : regex.GroupsAvoid c text.toList) :
    c ∈ (regex.replaceFirst text (Text.replacementTemplate target)).toList ↔
      found.Leaves text.toList target c := by
  have filled : c ∈ fillGroups (found.group? text.toList) (namePieces target.toList) ↔
      .group '0' ∈ namePieces target.toList ∧
        c ∈ (text.toList.take found.stop).drop found.start := by
    have whole : found.group? text.toList (NamePiece.index '0') =
        some ((text.toList.take found.stop).drop found.start) := rfl
    rw [Chars.mem_fillGroups_iff]
    constructor
    · rintro (member | ⟨digit, part, member, took, inside⟩)
      · exact absurd (Chars.mem_of_plain_mem_namePieces member) plain
      · have numbered := Chars.isNumbered_of_mem_namePieces member
        by_cases zero : digit = '0'
        · subst zero
          rw [whole] at took
          cases took
          exact ⟨member, inside⟩
        · have index := mt (Chars.index_eq_zero_iff numbered).mp zero
          exact absurd inside (avoid found isFirst _ _ index took)
    · rintro ⟨member, inside⟩
      exact .inr ⟨'0', _, member, whole, inside⟩
  rw [toList_replaceFirst isFirst, List.mem_append, List.mem_append, filled, Match.Leaves, or_assoc,
    or_comm (a := _ ∧ _)]

end Regex

/-! ## Ruby names -/

/-- Whether a regular expression decides about a symbol by its qualified name and leaves a colon of
it in the new name. -/
def LeaksScope (rules : List RenameRule) (simple qualified : String) : Prop :=
  ∃ rule compiled found,
    RuleTable.Decides RenameRule.source rules [qualified, simple] rule qualified ∧
    SymbolPattern.parse rule.source = .ok (.regex compiled) ∧
    compiled.find? qualified.toList = some found ∧ found.Leaves qualified.toList rule.target ':'

namespace Namer

/-- The Ruby names of a symbol: as a module, a class, a method, an attribute and a constant. -/
def names (namer : Namer) (shape : Name.MethodShape) (qualified : String) : List String :=
  [namer.moduleName shape.name qualified, namer.className shape.name qualified,
   namer.methodName shape qualified, namer.attributeName shape.name qualified,
   namer.constantName shape.name qualified]

variable {rules : List RenameRule} {namer : Namer} {simple qualified : String}

theorem not_leaksScope_of_renamed_eq_none (reads : RuleTable.renames rules = .ok namer.renames)
    (conventional : namer.renamed simple qualified = none) :
    ¬ LeaksScope rules simple qualified := by
  rintro ⟨rule, -, -, decides, -⟩
  obtain ⟨new, gives⟩ := RenameRule.exists_gives_iff.mpr decides.exists_matches
  have renamed := (renamed_eq_some_iff reads).mpr ⟨rule, qualified, decides, gives⟩
  rw [conventional] at renamed
  cases renamed

/-- A configured name has a colon if and only if a scope leaks into it. -/
theorem mem_renamed_iff (reads : RuleTable.renames rules = .ok namer.renames)
    (targets : ∀ rule ∈ rules, ':' ∉ rule.target.toList)
    (groups : ∀ rule ∈ rules, ∀ compiled, SymbolPattern.parse rule.source = .ok (.regex compiled) →
      compiled.GroupsAvoid ':' qualified.toList)
    (clear : ':' ∉ simple.toList) {new : String}
    (renamed : namer.renamed simple qualified = some new) :
    ':' ∈ new.toList ↔ LeaksScope rules simple qualified := by
  obtain ⟨rule, name, decides, gives⟩ := (renamed_eq_some_iff reads).mp renamed
  obtain ⟨known, isName⟩ := decides.mem
  cases gives with
  | exact parsed =>
      refine iff_of_false (targets rule known) ?_
      rintro ⟨other, compiled, found, decidesOther, parsedOther, -⟩
      obtain ⟨rfl, -⟩ := decides.unique decidesOther
      cases parsed.symm.trans parsedOther
  | @regex compiled _ parsed matched =>
      obtain ⟨found, isFirst⟩ := Option.isSome_iff_exists.mp matched
      have either : name = qualified ∨ ':' ∉ name.toList := by
        rcases List.mem_cons.mp isName with same | isSimple
        · exact .inl same
        · exact .inr (List.mem_singleton.mp isSimple ▸ clear)
      have avoid : compiled.GroupsAvoid ':' name.toList := by
        rcases either with rfl | without
        · exact groups rule known compiled parsed
        · exact Regex.groupsAvoid_of_not_mem without
      rw [Regex.mem_replaceFirst_iff isFirst (targets rule known) avoid]
      constructor
      · intro leaves
        rcases either with rfl | without
        · exact ⟨rule, compiled, found, decides, parsed, isFirst, leaves⟩
        · exact absurd leaves (Regex.Match.not_leaves_of_not_mem without rule.target)
      · rintro ⟨other, compiledOther, foundOther, decidesOther, parsedOther, isFirstOther, leaves⟩
        obtain ⟨rfl, rfl⟩ := decides.unique decidesOther
        cases parsed.symm.trans parsedOther
        cases isFirst.symm.trans isFirstOther
        exact leaves

/-- A rule that matches a whole path and keeps its last name. -/
def lastNameRules : List RenameRule :=
  [⟨"/^cv::(\\w+)$/", "\\1"⟩]

theorem find?_lastName {compiled : Regex}
    (parsed : SymbolPattern.parse "/^cv::(\\w+)$/" = .ok (.regex compiled)) :
    compiled.find? "cv::getValue".toList = some ⟨0, 12, [(3, 12), (2, 4)]⟩ := by
  have found : (SymbolPattern.parse "/^cv::(\\w+)$/").map
      (fun
        | .regex regex => regex.find? "cv::getValue".toList
        | .exact _ => none) =
      .ok (some ⟨0, 12, [(3, 12), (2, 4)]⟩) := by
    decide +kernel
  rw [parsed] at found
  exact Except.ok.inj found

theorem groupsAvoid_lastName {compiled : Regex}
    (parsed : SymbolPattern.parse "/^cv::(\\w+)$/" = .ok (.regex compiled)) :
    compiled.GroupsAvoid ':' "cv::getValue".toList := by
  intro found isFirst index part isGroup took
  cases isFirst.symm.trans (find?_lastName parsed)
  rw [Regex.Match.group?, if_neg isGroup] at took
  by_cases only : index = 1
  · subst only
    cases took
    decide
  · have other : List.lookup (2 * index) [(3, 12), (2, 4)] = none := by
      rw [List.lookup_eq_none_iff]
      simp only [List.forall_mem_cons, bne_iff_ne]
      exact ⟨by omega, by omega, nofun⟩
    rw [other] at took
    cases took

/-- A rule that matches a part of a name. -/
def matRules : List RenameRule :=
  [⟨"/Mat/", "Matrix"⟩]

/-- The expression of the rule, without any group. -/
def mat : Regex :=
  ⟨"Mat", .seq (.char (.single 'M')) (.seq (.char (.single 'a')) (.char (.single 't')))⟩

end Namer

end Bindery
