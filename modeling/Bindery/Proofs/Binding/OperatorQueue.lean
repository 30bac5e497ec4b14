import Bindery.Binding.Operators
import Mathlib.Data.List.Basic
import Mathlib.Data.List.Induction
import Mathlib.Data.List.Nodup

/-!
# Queues of free operators

A queue holds operators class by class: the classes in the order in which the first operator of
each came, the operators of a class in the order in which they came.
-/

set_option autoImplicit false

namespace Bindery

/-- Values that are sorted by their keys, whatever the order of the keys, are rearranged. -/
theorem perm_flatMap_filter {α κ : Type} [DecidableEq κ] (key : α → κ) {keys : List κ}
    (once : keys.Nodup) {values : List α} (known : ∀ value ∈ values, key value ∈ keys) :
    (keys.flatMap fun own => values.filter fun value => key value = own).Perm values := by
  induction keys generalizing values with
  | nil =>
      have nothing : values = [] := List.eq_nil_iff_forall_not_mem.mpr fun value member =>
        List.not_mem_nil (known value member)
      rw [nothing]
      exact .refl _
  | cons first rest ih =>
      obtain ⟨apart, once⟩ := List.nodup_cons.mp once
      -- The values of the first key go in front; the other keys do not see them.
      let others := values.filter fun value => ¬ key value = first
      have behind : ∀ own ∈ rest, (values.filter fun value => key value = own) =
          others.filter fun value => key value = own := by
        intro own member
        have other : own ≠ first := fun same => apart (same ▸ member)
        rw [List.filter_filter]
        apply List.filter_congr
        intro value _
        by_cases same : key value = own <;> simp [same, other]
      have inRest : ∀ value ∈ others, key value ∈ rest := by
        intro value member
        obtain ⟨among, other⟩ := List.mem_filter.mp member
        exact (List.mem_cons.mp (known value among)).resolve_left (of_decide_eq_true other)
      rw [List.flatMap_cons, List.flatMap_congr behind]
      refine ((ih once inRest).append_left _).trans ?_
      have split := List.filter_append_perm (fun value => decide (key value = first)) values
      simpa only [others, decide_not] using split

namespace OperatorQueue

/-- The classes that operators are about, in the order in which they are met first. -/
def classesOf (operators : List FreeOperator) : List String :=
  (operators.map (·.target)).eraseDups

/-- The operators of a class, in their order. -/
def ofClass (cppType : String) (operators : List FreeOperator) : List Lambda :=
  (operators.filter fun operator => operator.target = cppType).map (·.lambda)

/-- Adds operators one after the other. -/
def pushAll (queue : OperatorQueue) (operators : List FreeOperator) : OperatorQueue :=
  operators.foldl push queue

/-- The queue that operators make in their order. -/
def sorted (operators : List FreeOperator) : OperatorQueue :=
  ⟨(classesOf operators).map fun cppType => (cppType, ofClass cppType operators)⟩

@[simp] theorem pushAll_nil (queue : OperatorQueue) : queue.pushAll [] = queue :=
  rfl

theorem pushAll_append (queue : OperatorQueue) (first second : List FreeOperator) :
    queue.pushAll (first ++ second) = (queue.pushAll first).pushAll second :=
  List.foldl_append

section

variable {operators : List FreeOperator} {operator : FreeOperator} {cppType : String}

@[simp] theorem mem_classesOf_iff :
    cppType ∈ classesOf operators ↔ ∃ operator ∈ operators, operator.target = cppType := by
  simp [classesOf]

theorem classesOf_append_of_mem (known : operator.target ∈ classesOf operators) :
    classesOf (operators ++ [operator]) = classesOf operators := by
  have nothing : [operator.target].removeAll (operators.map (·.target)) = [] := by
    simpa [List.removeAll] using mem_classesOf_iff.mp known
  rw [classesOf, List.map_append, List.map_singleton, List.eraseDups_append, nothing,
    List.eraseDups_nil, List.append_nil, classesOf]

theorem classesOf_append_of_not_mem (new : operator.target ∉ classesOf operators) :
    classesOf (operators ++ [operator]) = classesOf operators ++ [operator.target] := by
  have stays : [operator.target].removeAll (operators.map (·.target)) = [operator.target] := by
    simpa [List.removeAll] using mem_classesOf_iff.not.mp new
  rw [classesOf, List.map_append, List.map_singleton, List.eraseDups_append, stays, classesOf]
  rfl

theorem nodup_classesOf (operators : List FreeOperator) : (classesOf operators).Nodup := by
  induction operators using List.reverseRecOn with
  | nil => exact List.nodup_nil
  | append_singleton operators operator ih =>
      by_cases known : operator.target ∈ classesOf operators
      · rwa [classesOf_append_of_mem known]
      · rw [classesOf_append_of_not_mem known]
        exact List.nodup_append.mpr ⟨ih, List.nodup_singleton _, by simpa using known⟩

theorem ofClass_append_self :
    ofClass operator.target (operators ++ [operator]) =
      ofClass operator.target operators ++ [operator.lambda] := by
  simp [ofClass]

theorem ofClass_append_of_ne (other : operator.target ≠ cppType) :
    ofClass cppType (operators ++ [operator]) = ofClass cppType operators := by
  simp [ofClass, other]

theorem ofClass_eq_nil (none : cppType ∉ classesOf operators) : ofClass cppType operators = [] := by
  simpa [ofClass] using none

theorem lookup_sorted_isSome_iff :
    ((sorted operators).pending.lookup cppType).isSome ↔ cppType ∈ classesOf operators := by
  simp only [sorted, List.lookup_isSome_iff, beq_iff_eq]
  constructor
  · rintro ⟨entry, member, rfl⟩
    obtain ⟨known, listed, rfl⟩ := List.mem_map.mp member
    exact listed
  · intro listed
    exact ⟨_, List.mem_map_of_mem listed, rfl⟩

theorem push_sorted (operators : List FreeOperator) (operator : FreeOperator) :
    (sorted operators).push operator = sorted (operators ++ [operator]) := by
  unfold push
  simp only [lookup_sorted_isSome_iff]
  -- The entry of a known class grows in its place, and a new class comes behind all others.
  by_cases known : operator.target ∈ classesOf operators
  · rw [if_pos known]
    unfold sorted
    rw [classesOf_append_of_mem known, List.map_map]
    congr 1
    refine List.map_congr_left fun cppType _ => ?_
    by_cases same : cppType = operator.target
    · subst same
      simp [ofClass_append_self]
    · simp [same, ofClass_append_of_ne (Ne.symm same)]
  · rw [if_neg known]
    unfold sorted
    rw [classesOf_append_of_not_mem known, List.map_append, List.map_singleton,
      ofClass_append_self, ofClass_eq_nil known]
    congr 2
    refine List.map_congr_left fun cppType member => ?_
    have other : operator.target ≠ cppType := fun same => known (same ▸ member)
    rw [ofClass_append_of_ne other]

end

/-- Operators that wait are sorted. -/
theorem pushAll_empty (operators : List FreeOperator) : empty.pushAll operators = sorted operators := by
  induction operators using List.reverseRecOn with
  | nil => rfl
  | append_singleton operators operator ih =>
      rw [pushAll_append, ih]
      exact push_sorted operators operator

/-- No operator is lost and none is repeated. -/
theorem perm_classesOf (operators : List FreeOperator) :
    ((classesOf operators).flatMap fun cppType =>
      (ofClass cppType operators).map (FreeOperator.mk cppType)).Perm operators := by
  have each : ∀ cppType ∈ classesOf operators,
      (ofClass cppType operators).map (FreeOperator.mk cppType) =
        operators.filter fun operator => operator.target = cppType := by
    intro cppType _
    rw [ofClass, List.map_map]
    refine (List.map_congr_left fun operator member => ?_).trans (List.map_id _)
    have same := of_decide_eq_true (List.mem_filter.mp member).2
    rw [← same]
    rfl
  rw [List.flatMap_congr each]
  exact perm_flatMap_filter _ (nodup_classesOf operators) fun operator member =>
    mem_classesOf_iff.mpr ⟨operator, member, rfl⟩

end OperatorQueue

end Bindery
