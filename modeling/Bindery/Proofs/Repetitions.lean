import Mathlib.Data.List.Basic

/-!
# Lists without repetitions in a row

Of elements in a row that are related to the first of them only the first is kept.  Nothing is lost
up to the relation, and a sorted list becomes strictly sorted.
-/

set_option autoImplicit false

namespace Bindery

variable {α : Type} {r : α → α → Bool}

theorem eraseRepsBy_loop (first : α) (rest kept : List α) :
    List.eraseRepsBy.loop r first rest kept =
      kept.reverse ++ List.eraseRepsBy.loop r first rest [] := by
  induction rest generalizing first kept with
  | nil => simp [List.eraseRepsBy.loop]
  | cons next rest ih =>
      rw [List.eraseRepsBy.loop, List.eraseRepsBy.loop]
      cases r first next with
      | true => exact ih first kept
      | false => rw [ih next (first :: kept), ih next [first]]; simp

theorem eraseRepsBy_cons_cons (first next : α) (rest : List α) :
    (first :: next :: rest).eraseRepsBy r =
      if r first next then (first :: rest).eraseRepsBy r
      else first :: (next :: rest).eraseRepsBy r := by
  change List.eraseRepsBy.loop r first (next :: rest) [] = _
  rw [List.eraseRepsBy.loop]
  cases r first next with
  | true => rfl
  | false => exact eraseRepsBy_loop next rest [first]

theorem eraseRepsBy_sublist (values : List α) : (values.eraseRepsBy r).Sublist values := by
  cases values with
  | nil => exact List.Sublist.refl _
  | cons first rest =>
      induction rest generalizing first with
      | nil => exact List.Sublist.refl _
      | cons next rest ih =>
          rw [eraseRepsBy_cons_cons]
          split
          · exact (ih first).trans ((List.sublist_cons_self _ _).cons_cons first)
          · exact (ih next).cons_cons first

theorem mem_eraseRepsBy_cons (first : α) (rest : List α) :
    first ∈ (first :: rest).eraseRepsBy r := by
  induction rest with
  | nil => exact List.mem_singleton_self first
  | cons next rest ih =>
      rw [eraseRepsBy_cons_cons]
      split
      · exact ih
      · exact List.mem_cons_self

/-- What is left out is related to an element that is kept. -/
theorem exists_mem_eraseRepsBy (reflexive : ∀ value, r value value = true) {value : α}
    {values : List α} (member : value ∈ values) :
    ∃ kept ∈ values.eraseRepsBy r, r kept value = true := by
  cases values with
  | nil => cases member
  | cons first rest =>
      induction rest generalizing first with
      | nil =>
          obtain rfl := List.mem_singleton.mp member
          exact ⟨value, mem_eraseRepsBy_cons value [], reflexive value⟩
      | cons next rest ih =>
          rw [eraseRepsBy_cons_cons]
          split
          case isTrue related =>
            rcases List.mem_cons.mp member with rfl | behind
            · exact ih value List.mem_cons_self
            · rcases List.mem_cons.mp behind with rfl | later
              · exact ⟨first, mem_eraseRepsBy_cons first rest, related⟩
              · exact ih first (List.mem_cons_of_mem first later)
          case isFalse =>
            rcases List.mem_cons.mp member with rfl | behind
            · exact ⟨value, List.mem_cons_self, reflexive value⟩
            · obtain ⟨kept, isKept, related⟩ := ih next behind
              exact ⟨kept, List.mem_cons_of_mem first isKept, related⟩

/-- In a list that is sorted by a linear preorder the equivalent elements stand in a row. -/
theorem pairwise_lt_eraseRepsBy {cmp : α → α → Ordering} [Std.TransCmp cmp]
    (related : ∀ a b, r a b = true ↔ cmp a b = .eq) {values : List α}
    (sorted : values.Pairwise fun a b => (cmp a b).isLE = true) :
    (values.eraseRepsBy r).Pairwise fun a b => cmp a b = .lt := by
  cases values with
  | nil => exact List.Pairwise.nil
  | cons first rest =>
      induction rest generalizing first with
      | nil => exact List.pairwise_singleton _ first
      | cons next rest ih =>
          rw [eraseRepsBy_cons_cons]
          split
          · exact ih first (sorted.sublist ((List.sublist_cons_self _ _).cons_cons first))
          · rename_i unrelated
            obtain ⟨below, later⟩ := List.pairwise_cons.mp sorted
            refine List.pairwise_cons.mpr ⟨fun value kept => ?_, ih next later⟩
            have firstBelow : cmp first next = .lt :=
              (Ordering.isLE_iff_eq_lt_or_eq_eq.mp (below next List.mem_cons_self)).resolve_right
                (mt (related first next).mpr unrelated)
            rcases List.mem_cons.mp ((eraseRepsBy_sublist _).subset kept) with rfl | behind
            · exact firstBelow
            · exact Std.TransCmp.lt_of_lt_of_isLE firstBelow
                ((List.pairwise_cons.mp later).1 value behind)

theorem eraseReps_sublist [BEq α] (values : List α) : values.eraseReps.Sublist values :=
  eraseRepsBy_sublist values

theorem mem_eraseReps [BEq α] [LawfulBEq α] {value : α} {values : List α} :
    value ∈ values.eraseReps ↔ value ∈ values := by
  refine ⟨fun kept => (eraseReps_sublist values).subset kept, fun member => ?_⟩
  obtain ⟨kept, isKept, same⟩ := exists_mem_eraseRepsBy (fun _ => BEq.rfl) member
  exact eq_of_beq same ▸ isKept

end Bindery
