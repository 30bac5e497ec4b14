import Bindery.Proofs.Text.ScopePath
import Bindery.Text.DefaultValue

/-!
# Parts of a name

A name that is joined from parts with `::` between them is split into these parts again, be they
empty or with `::` in their brackets.  So the partial names of a use are joined from the last parts
of its full name, and stand at the end of it.
-/

set_option autoImplicit false

namespace Bindery

namespace Chars

/-! ## Pieces of a text -/

theorem intercalate_scopePieces (depth : Int) (cs : List Char) :
    [':', ':'].intercalate (scopePieces depth cs) = cs := by
  fun_induction scopePieces depth cs with
  | case1 => rfl
  | case2 => rfl
  | case3 depth c d rest colons ih =>
      obtain ⟨rfl, -, rfl⟩ := colons
      rw [List.intercalate_cons_of_ne_nil (scopePieces_ne_nil _ _), ih]
      rfl
  | case4 depth c d rest other ih =>
      cases pieces : scopePieces (depth + nesting c) (d :: rest) with
      | nil => exact absurd pieces (scopePieces_ne_nil _ _)
      | cons piece pieces =>
          rw [pieces] at ih
          rw [consFirst, List.intercalate_cons_cons_left, ih]

theorem length_trim_le (cs : List Char) : (trim cs).length ≤ cs.length := by
  have front := (List.dropWhile_suffix (l := cs) isBlank).length_le
  have back := (List.dropWhile_suffix (l := (trimStart cs).reverse) isBlank).length_le
  rw [List.length_reverse] at back
  rw [trim, trimEnd, List.length_reverse]
  exact back.trans front

theorem length_intercalate_trim_le (pieces : List (List Char)) :
    ([':', ':'].intercalate (pieces.map trim)).length ≤
      ([':', ':'].intercalate pieces).length := by
  induction pieces with
  | nil => exact Nat.le_refl _
  | cons first others ih =>
      have here := length_trim_le first
      cases others with
      | nil => simpa using here
      | cons second others =>
          simp only [List.map_cons, List.intercalate_cons_cons, List.length_append] at ih ⊢
          omega

/-! ## The last parts of a name -/

/-- Without some of its first parts a name is the full one without a scope in front. -/
theorem exists_intercalate_append {front rest : List (List Char)} (some : front ≠ [])
    (others : rest ≠ []) :
    ∃ scope, [':', ':'] <:+ scope ∧
      [':', ':'].intercalate (front ++ rest) = scope ++ [':', ':'].intercalate rest := by
  induction front with
  | nil => exact absurd rfl some
  | cons first front ih =>
      cases front with
      | nil =>
          refine ⟨first ++ [':', ':'], List.suffix_append _ _, ?_⟩
          exact List.intercalate_cons_of_ne_nil others
      | cons second front =>
          obtain ⟨scope, ends, joined⟩ := ih (List.cons_ne_nil second front)
          refine ⟨first ++ [':', ':'] ++ scope, List.suffix_append_of_suffix ends, ?_⟩
          rw [List.append_assoc _ scope, ← joined]
          exact List.intercalate_cons_cons

theorem isSuffix_intercalate {parts rest : List (List Char)} (ends : rest <:+ parts) :
    [':', ':'].intercalate rest <:+ [':', ':'].intercalate parts := by
  obtain ⟨front, rfl⟩ := ends
  by_cases none : front = []
  · rw [none]
    exact List.suffix_rfl
  · by_cases empty : rest = []
    · rw [empty]
      exact List.nil_suffix
    · obtain ⟨scope, -, joined⟩ := exists_intercalate_append none empty
      exact ⟨scope, joined.symm⟩

end Chars

namespace NameUse

variable {use : NameUse} {name : String}

theorem mem_partialNames_iff {parts : List String}
    (split : Text.splitScope use.qualified = parts) :
    name ∈ use.partialNames ↔
      ∃ scopes rest, parts = scopes ++ rest ∧ scopes ≠ [] ∧ 2 ≤ rest.length ∧
        name = Text.joinScope rest := by
  rw [partialNames, split, List.mem_map]
  constructor
  · rintro ⟨i, bound, rfl⟩
    have few := List.mem_range.mp bound
    refine ⟨parts.take (i + 1), parts.drop (i + 1), (List.take_append_drop _ _).symm, ?_, ?_, rfl⟩
    · apply List.ne_nil_of_length_pos
      rw [List.length_take]
      omega
    · rw [List.length_drop]
      omega
  · rintro ⟨scopes, rest, rfl, some, enough, rfl⟩
    have size := List.length_pos_iff.mpr some
    refine ⟨scopes.length - 1, ?_, ?_⟩
    · rw [List.mem_range, List.length_append]
      omega
    · rw [Nat.sub_add_cancel size, List.drop_left]
      rfl

theorem length_lt_of_mem_partialNames (isPartial : name ∈ use.partialNames) :
    name.length < use.qualified.length := by
  obtain ⟨scopes, rest, parts, some, enough, rfl⟩ := (mem_partialNames_iff rfl).mp isPartial
  rw [Text.splitScope, Chars.splitScope, List.map_map] at parts
  obtain ⟨front, back, cut, rfl, rfl⟩ := List.map_eq_append_iff.mp parts
  have leftOut : front ≠ [] := by
    rintro rfl
    exact some rfl
  have others : back ≠ [] := by
    rintro rfl
    simp at enough
  obtain ⟨scope, ends, joined⟩ := Chars.exists_intercalate_append leftOut others
  rw [← cut, Chars.intercalate_scopePieces] at joined
  have trimmed : (Text.joinScope (back.map (String.ofList ∘ Chars.trim))).toList =
      [':', ':'].intercalate (back.map Chars.trim) := by
    rw [Text.toList_joinScope, List.map_map]
    simp [Function.comp_def]
  have whole := congrArg List.length joined
  have colons := ends.length_le
  have short := Chars.length_intercalate_trim_le back
  rw [List.length_append, String.length_toList] at whole
  rw [← String.length_toList, trimmed]
  simp only [List.length_cons, List.length_nil] at colons
  omega

end NameUse

namespace Text

/-- Splitting a name inverts joining it.  The last parts are joined to an end of the whole name, and
where they are two at least, and not all, to a partial name of its uses. -/
theorem scopes_split_back {parts : List String} (some : parts ≠ [])
    (each : ∀ part ∈ parts, IsNamePart part) :
    splitScope (joinScope parts) = parts ∧
      (∀ rest, rest <:+ parts → (joinScope rest).toList <:+ (joinScope parts).toList) ∧
      ∀ use : NameUse, use.qualified = joinScope parts → ∀ name, name ∈ use.partialNames ↔
        ∃ scopes rest, parts = scopes ++ rest ∧ scopes ≠ [] ∧ 2 ≤ rest.length ∧
          name = joinScope rest := by
  have split := splitScope_joinScope some each
  refine ⟨split, fun rest ends => ?_, fun use full name => ?_⟩
  · rw [toList_joinScope, toList_joinScope]
    exact Chars.isSuffix_intercalate (ends.map String.toList)
  · refine NameUse.mem_partialNames_iff ?_
    rw [full, split]

/-- Empty parts at the front and inside, a `::` in a list, colons in parentheses, and a name that
ends in `::`. -/
theorem crowded_scopes_split_back :
    (∀ part ∈ ["", "cv", "Map<std::pair<int, K>, V>", "", "f(a ? b : c::d)", ""],
        IsNamePart part) ∧
      splitScope "::cv::Map<std::pair<int, K>, V>::::f(a ? b : c::d)::" =
        ["", "cv", "Map<std::pair<int, K>, V>", "", "f(a ? b : c::d)", ""] ∧
      "f(a ? b : c::d)::" ∈
        (⟨"", "::cv::Map<std::pair<int, K>, V>::::f(a ? b : c::d)::"⟩ : NameUse).partialNames := by
  have each : ∀ part ∈ ["", "cv", "Map<std::pair<int, K>, V>", "", "f(a ? b : c::d)", ""],
      IsNamePart part := by decide +kernel
  obtain ⟨split, -, partials⟩ := scopes_split_back (by simp) each
  have isPartial := (partials ⟨"", _⟩ rfl "f(a ? b : c::d)::").mpr
    ⟨["", "cv", "Map<std::pair<int, K>, V>", ""], ["f(a ? b : c::d)", ""], rfl, by simp, by simp,
      rfl⟩
  exact ⟨each, split, isPartial⟩

end Text

end Bindery
