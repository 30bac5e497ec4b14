import Mathlib.Data.List.Basic

/-!
# Attempts

A step that may fail is tried for each element of a list, and the first failure ends the attempts.
They succeed if each of them does, and the results are then those of the elements.
-/

set_option autoImplicit false

namespace Bindery

variable {α β ε : Type} {step : α → Except ε β}

theorem except_bind_eq_ok {first : Except ε α} {rest : α → Except ε β} {result : β} :
    (first >>= rest) = .ok result ↔ ∃ value, first = .ok value ∧ rest value = .ok result := by
  cases first with
  | error error => simp [bind, Except.bind]
  | ok value => simp [bind, Except.bind]

theorem mapM_cons_eq_ok {value : α} {values : List α} {results : List β} :
    (value :: values).mapM step = .ok results ↔ ∃ result others,
      step value = .ok result ∧ values.mapM step = .ok others ∧ results = result :: others := by
  simp only [List.mapM_cons, except_bind_eq_ok, pure, Except.pure, Except.ok.injEq]
  constructor
  · rintro ⟨result, given, others, later, rfl⟩
    exact ⟨result, others, given, later, rfl⟩
  · rintro ⟨result, others, given, later, rfl⟩
    exact ⟨result, given, others, later, rfl⟩

theorem mem_iff_of_mapM_eq_ok {values : List α} {results : List β} {result : β}
    (run : values.mapM step = .ok results) :
    result ∈ results ↔ ∃ value ∈ values, step value = .ok result := by
  induction values generalizing results with
  | nil =>
      cases run
      simp
  | cons value values ih =>
      obtain ⟨first, others, given, later, rfl⟩ := mapM_cons_eq_ok.mp run
      simp [ih later, given, eq_comm]

theorem exists_mapM_eq_ok_iff {values : List α} :
    (∃ results, values.mapM step = .ok results) ↔
      ∀ value ∈ values, ∃ result, step value = .ok result := by
  induction values with
  | nil => simp [pure, Except.pure]
  | cons value values ih =>
      simp only [mapM_cons_eq_ok, List.forall_mem_cons, ← ih]
      constructor
      · rintro ⟨_, result, others, given, later, -⟩
        exact ⟨⟨result, given⟩, others, later⟩
      · rintro ⟨⟨result, given⟩, others, later⟩
        exact ⟨_, result, others, given, later, rfl⟩

/-- Elements in another order, or in another number, give the same results. -/
theorem mapM_congr_members {values others : List α} {results : List β}
    (members : ∀ value, value ∈ others ↔ value ∈ values) (run : values.mapM step = .ok results) :
    ∃ found, others.mapM step = .ok found ∧ ∀ result, result ∈ found ↔ result ∈ results := by
  obtain ⟨found, otherRun⟩ := exists_mapM_eq_ok_iff.mpr fun value member =>
    exists_mapM_eq_ok_iff.mp ⟨results, run⟩ value ((members value).mp member)
  refine ⟨found, otherRun, fun result => ?_⟩
  simp only [mem_iff_of_mapM_eq_ok otherRun, mem_iff_of_mapM_eq_ok run, members]

theorem forM_eq_ok_iff {check : α → Except ε Unit} {values : List α} :
    values.forM check = .ok () ↔ ∀ value ∈ values, check value = .ok () := by
  induction values with
  | nil => simp [List.forM, pure, Except.pure]
  | cons value rest ih =>
      change (check value >>= fun _ => rest.forM check) = _ ↔ _
      rw [except_bind_eq_ok, List.forall_mem_cons, ← ih]
      exact ⟨fun ⟨_, passed, others⟩ => ⟨passed, others⟩, fun ⟨passed, others⟩ =>
        ⟨(), passed, others⟩⟩

/-- A check of each element refuses exactly if it refuses some element, with the error of the first
that it refuses. -/
theorem forM_eq_error_iff {check : α → Except ε Unit} {refusal? : α → Option ε}
    (refuses : ∀ value error, check value = .error error ↔ refusal? value = some error)
    {values : List α} {error : ε} :
    values.forM check = .error error ↔ values.findSome? refusal? = some error := by
  induction values with
  | nil => simp [List.forM, pure, Except.pure]
  | cons value rest ih =>
      rw [List.findSome?_cons]
      change (check value >>= fun _ => rest.forM check) = _ ↔ _
      cases checked : check value with
      | error first =>
          rw [(refuses value first).mp checked]
          simp [bind, Except.bind]
      | ok passed =>
          have none : refusal? value = none := by
            refine Option.eq_none_iff_forall_ne_some.mpr fun first refused => ?_
            rw [(refuses value first).mpr refused] at checked
            cases checked
          rw [none]
          exact ih

end Bindery
