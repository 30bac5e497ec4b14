import Bindery.Text.Blank

/-!
# Beginnings of texts

What a text begins with can be told and taken away.  Of the qualifiers of a type only a `const ` in
front is found so.
-/

set_option autoImplicit false

namespace Bindery

namespace Text

theorem dropPrefix?_eq_none {head s : String} (plain : startsWith head s = false) :
    dropPrefix? head s = none := by
  unfold startsWith at plain
  rw [dropPrefix?, Chars.dropPrefix?, if_neg (Bool.eq_false_iff.mp plain), Option.map_none]

theorem startsWith_append (head s : String) : startsWith head (head ++ s) = true := by
  rw [startsWith, String.toList_append]
  exact List.isPrefixOf_iff_prefix.mpr (List.prefix_append _ _)

theorem dropPrefix?_append (head s : String) : dropPrefix? head (head ++ s) = some s := by
  have starts : head.toList.isPrefixOf (head ++ s).toList = true := startsWith_append head s
  rw [dropPrefix?, Chars.dropPrefix?, if_pos starts, String.toList_append, List.drop_left,
    Option.map_some, String.ofList_toList]

theorem exists_of_startsWith {head s : String} (starts : startsWith head s = true) :
    ∃ rest, s = head ++ rest := by
  obtain ⟨rest, whole⟩ := List.isPrefixOf_iff_prefix.mp starts
  refine ⟨String.ofList rest, ?_⟩
  rw [← String.toList_inj, String.toList_append, String.toList_ofList, whole]

theorem dropCopies_of_plain {head s : String} (plain : startsWith head s = false) :
    dropCopies head s = s := by
  have other : ¬ (0 < head.toList.length ∧ head.toList.isPrefixOf s.toList = true) :=
    fun starts => Bool.false_ne_true (plain.symm.trans starts.2)
  rw [dropCopies, Chars.dropCopies, dif_neg other, String.ofList_toList]

theorem dropCopies_append {head : String} (nonempty : 0 < head.toList.length) (s : String) :
    dropCopies head (head ++ s) = dropCopies head s := by
  have starts : head.toList.isPrefixOf (head.toList ++ s.toList) = true :=
    List.isPrefixOf_iff_prefix.mpr (List.prefix_append _ _)
  rw [dropCopies, String.toList_append, Chars.dropCopies, dif_pos ⟨nonempty, starts⟩,
    List.drop_left, dropCopies]

theorem dropCopies_suffix (head s : String) : (dropCopies head s).toList <:+ s.toList := by
  have suffix (head cs : List Char) : Chars.dropCopies head cs <:+ cs := by
    fun_induction Chars.dropCopies head cs with
    | case1 cs present ih => exact ih.trans (List.drop_suffix _ _)
    | case2 cs => exact List.suffix_refl cs
  rw [dropCopies, String.toList_ofList]
  exact suffix head.toList s.toList

/-- No copy is left in front. -/
theorem startsWith_dropCopies {head : String} (nonempty : 0 < head.toList.length) (s : String) :
    startsWith head (dropCopies head s) = false := by
  have done (head cs : List Char) (nonempty : 0 < head.length) :
      head.isPrefixOf (Chars.dropCopies head cs) = false := by
    fun_induction Chars.dropCopies head cs with
    | case1 cs present ih => exact ih
    | case2 cs other => exact Bool.eq_false_iff.mpr fun starts => other ⟨nonempty, starts⟩
  rw [startsWith, dropCopies, String.toList_ofList]
  exact done head.toList s.toList nonempty

/-! ## A `const` in front -/

/-- The text after a `const ` in front, or all of it. -/
def withoutConst (s : String) : String :=
  (dropPrefix? "const " s).getD s

theorem withoutConst_append (s : String) : withoutConst ("const " ++ s) = s := by
  rw [withoutConst, dropPrefix?_append, Option.getD_some]

theorem withoutConst_of_plain {s : String} (plain : startsWith "const " s = false) :
    withoutConst s = s := by
  rw [withoutConst, dropPrefix?_eq_none plain, Option.getD_none]

theorem withoutConst_eq_self_iff {s : String} :
    withoutConst s = s ↔ startsWith "const " s = false := by
  refine ⟨fun same => ?_, withoutConst_of_plain⟩
  refine Bool.eq_false_iff.mpr fun starts => ?_
  obtain ⟨rest, rfl⟩ := exists_of_startsWith starts
  rw [withoutConst_append] at same
  have size := congrArg String.length same
  have more : "const ".length = 6 := rfl
  rw [String.length_append] at size
  omega

/-- A `const` behind a text is not taken away. -/
theorem withoutConst_append_const_ne {s : String} (other : s.toList.getLast? ≠ some 't') :
    withoutConst (s ++ " const") ≠ s := by
  intro same
  cases starts : startsWith "const " (s ++ " const") with
  | true =>
      obtain ⟨rest, whole⟩ := exists_of_startsWith starts
      rw [whole, withoutConst_append] at same
      subst same
      have ends := congrArg (fun text => text.toList.getLast?) whole
      have last : " const".toList.getLast? = some 't' := rfl
      simp only [String.toList_append, List.getLast?_append, last, Option.some_or] at ends
      cases kept : rest.toList.getLast? with
      | none =>
          rw [kept] at ends
          exact absurd ends (by decide)
      | some c =>
          rw [kept, Option.some_or] at ends
          exact other (kept.trans ends.symm)
  | false =>
      rw [withoutConst_of_plain starts] at same
      have size := congrArg String.length same
      have more : " const".length = 6 := rfl
      rw [String.length_append] at size
      omega

end Text

end Bindery
