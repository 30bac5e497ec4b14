import Bindery.Proofs.Repetitions
import Bindery.Run.Input
import Mathlib.Data.List.Forall2
import Mathlib.Data.List.Perm.Basic
import Mathlib.Order.Compare

/-!
# The order of the headers

Two spellings of a path are one path where they have the same components, and so for headers.  Up
to spelling the order of the headers is linear.  A normalized list has each of its headers once, in
this order, and so is determined by which headers there are.
-/

set_option autoImplicit false

namespace Bindery

/-- An order of values by what is read off them is as good as the order of what is read. -/
instance transCmp_on {α β : Type} {cmp : β → β → Ordering} [Std.TransCmp cmp] (read : α → β) :
    Std.TransCmp fun a b => cmp (read a) (read b) where
  eq_swap := Std.OrientedCmp.eq_swap
  isLE_trans := Std.TransCmp.isLE_trans

namespace Path

/-- Components are ordered by form and text, which tell them apart. -/
theorem Component.compare_eq_compareLex :
    Component.compare = compareLex (compareOn Component.rank) (compareOn Component.text) := by
  funext a b
  cases a <;> cases b <;> rfl

instance : Std.TransCmp Component.compare := by
  rw [Component.compare_eq_compareLex]
  infer_instance

instance : Std.LawfulEqCmp Component.compare where
  compare_self {a} := by cases a <;> simp [Component.compare]
  eq_of_compare {a b} equal := by
    rw [Component.compare_eq_compareLex, compareLex, Ordering.then_eq_eq] at equal
    obtain ⟨ranks, texts⟩ := equal
    have sameRank : a.rank = b.rank := Std.LawfulEqCmp.eq_of_compare ranks
    have sameText : a.text = b.text := Std.LawfulEqCmp.eq_of_compare texts
    cases a <;> cases b <;> first | rfl | exact congrArg Component.name sameText | cases sameRank

theorem compareComponents_eq_compareLex :
    compareComponents = List.compareLex Component.compare := by
  funext left right
  induction left generalizing right with
  | nil => cases right <;> rfl
  | cons a left ih =>
      cases right with
      | nil => rfl
      | cons b right => rw [compareComponents, ih, List.compareLex_cons_cons]

instance : Std.TransCmp compareComponents := by
  rw [compareComponents_eq_compareLex]
  infer_instance

instance : Std.LawfulEqCmp compareComponents := by
  rw [compareComponents_eq_compareLex]
  infer_instance

theorem same_iff_compare_eq {a b : String} : same a b = true ↔ compare a b = .eq := by
  rw [same, beq_iff_eq, compare, Std.LawfulEqCmp.compare_eq_iff_eq]

end Path

namespace UnitInput

/-- The components of both paths: a header without its spelling. -/
def places (input : UnitInput) : List Path.Component × List Path.Component :=
  (Path.components input.relative, Path.components input.path)

def comparePlaces : (a b : List Path.Component × List Path.Component) → Ordering :=
  compareLex (fun a b => Path.compareComponents a.1 b.1) fun a b => Path.compareComponents a.2 b.2

instance : Std.TransCmp comparePlaces :=
  have : Std.TransCmp fun a b : List Path.Component × List Path.Component =>
      Path.compareComponents a.1 b.1 := transCmp_on Prod.fst
  have : Std.TransCmp fun a b : List Path.Component × List Path.Component =>
      Path.compareComponents a.2 b.2 := transCmp_on Prod.snd
  inferInstanceAs (Std.TransCmp (compareLex _ _))

instance : Std.TransCmp compare :=
  inferInstanceAs (Std.TransCmp fun a b => comparePlaces (places a) (places b))

theorem same_iff_places_eq {a b : UnitInput} : a.same b = true ↔ a.places = b.places := by
  simp [same, Path.same, places]

theorem same_iff_compare_eq {a b : UnitInput} : a.same b = true ↔ compare a b = .eq := by
  rw [same, Bool.and_eq_true, Path.same_iff_compare_eq, Path.same_iff_compare_eq, compare,
    Ordering.then_eq_eq]

/-! ## Normalized lists -/

theorem pairwise_normalize (inputs : List UnitInput) :
    (normalize inputs).Pairwise fun a b => compare a b = .lt := by
  refine pairwise_lt_eraseRepsBy (fun _ _ => same_iff_compare_eq) (List.pairwise_mergeSort ?_ ?_ _)
  · intro a b c first second
    exact Std.TransCmp.isLE_trans first second
  · intro a b
    rw [@Std.OrientedCmp.eq_swap _ compare _ b a]
    cases compare a b <;> rfl

theorem of_mem_normalize {inputs : List UnitInput} {input : UnitInput}
    (member : input ∈ normalize inputs) : input ∈ inputs :=
  List.mem_mergeSort.mp ((eraseRepsBy_sublist _).subset member)

/-- Of each header one spelling is kept. -/
theorem exists_mem_normalize {inputs : List UnitInput} {input : UnitInput}
    (member : input ∈ inputs) : ∃ kept ∈ normalize inputs, kept.same input = true :=
  exists_mem_eraseRepsBy (fun _ => same_iff_places_eq.mpr rfl) (List.mem_mergeSort.mpr member)

theorem mem_places_normalize {inputs : List UnitInput}
    {place : List Path.Component × List Path.Component} :
    place ∈ (normalize inputs).map places ↔ place ∈ inputs.map places := by
  constructor
  · intro member
    obtain ⟨input, kept, rfl⟩ := List.mem_map.mp member
    exact List.mem_map_of_mem (of_mem_normalize kept)
  · intro member
    obtain ⟨input, given, rfl⟩ := List.mem_map.mp member
    obtain ⟨kept, isKept, same⟩ := exists_mem_normalize given
    exact same_iff_places_eq.mp same ▸ List.mem_map_of_mem isKept

theorem pairwise_places_normalize (inputs : List UnitInput) :
    ((normalize inputs).map places).Pairwise fun a b => comparePlaces a b = .lt :=
  List.pairwise_map.mpr (pairwise_normalize inputs)

theorem nodup_places_normalize (inputs : List UnitInput) :
    ((normalize inputs).map places).Nodup := by
  refine (pairwise_places_normalize inputs).imp fun {a b} less equal => ?_
  rw [equal, @Std.ReflCmp.compare_self _ comparePlaces] at less
  cases less

/-- Headers that are the same one by one are equal where no header has two spellings. -/
theorem eq_of_forall₂_same {left right : List UnitInput}
    (alike : List.Forall₂ (fun a b => a.same b = true) left right)
    (oneSpelling : ∀ a ∈ left, ∀ b ∈ right, a.same b = true → a = b) : left = right := by
  induction alike with
  | nil => rfl
  | cons same _ ih =>
      have first := oneSpelling _ List.mem_cons_self _ List.mem_cons_self same
      have later := ih fun a inLeft b inRight =>
        oneSpelling a (List.mem_cons_of_mem _ inLeft) b (List.mem_cons_of_mem _ inRight)
      rw [first, later]

/-- Which headers there are decides what a normalized list is, not their order or number. -/
theorem normalize_congr {left right : List UnitInput}
    (members : ∀ input, input ∈ left ↔ input ∈ right) :
    List.Forall₂ (fun a b => a.same b = true) (normalize left) (normalize right) := by
  have perm : ((normalize left).map places).Perm ((normalize right).map places) := by
    rw [List.perm_ext_iff_of_nodup (nodup_places_normalize left) (nodup_places_normalize right)]
    intro place
    rw [mem_places_normalize, mem_places_normalize]
    simp only [List.mem_map, members]
  have equal : (normalize left).map places = (normalize right).map places := by
    refine perm.eq_of_pairwise ?_ (pairwise_places_normalize left)
      (pairwise_places_normalize right)
    intro a b _ _ less greater
    rw [@Std.OrientedCmp.eq_swap _ comparePlaces, less] at greater
    cases greater
  simp only [same_iff_places_eq]
  rw [← List.forall₂_eq_eq_eq] at equal
  exact List.forall₂_map_right_iff.mp (List.forall₂_map_left_iff.mp equal)

end UnitInput

end Bindery
