import Bindery.Proofs.Tree.Grounded
import Bindery.Tree.Query
import Mathlib.Data.List.Basic

/-!
# Ranks

A rank of the declarations of a tree grows along each link from a scope to what it holds.  Where
there is one, both ways end before the steps run out, and the declarations above and below another
are those above and below the next one on the way.
-/

set_option autoImplicit false

namespace Bindery

namespace DeclTree

/-- The rank grows from scopes to declarations and from declarations to their children; it is less
than the number of declarations. -/
structure IsRanked (tree : DeclTree) (rank : DeclId → Nat) : Prop where
  parent_lt : ∀ {id parent : DeclId}, tree.semanticParent id = some parent → rank parent < rank id
  lt_child : ∀ {id child : DeclId}, child ∈ tree.children id → rank id < rank child
  child_lt : ∀ {id child : DeclId}, child ∈ tree.children id → child < tree.size
  lt_size : ∀ {id : DeclId}, id < tree.size → rank id < tree.size

/-- The rank grows from declarations to their children; whatever has children ranks below the number
of declarations. -/
structure RanksChildren (tree : DeclTree) (rank : DeclId → Nat) : Prop where
  lt_child : ∀ {id child : DeclId}, child ∈ tree.children id → rank id < rank child
  lt_size : ∀ {id child : DeclId}, child ∈ tree.children id → rank id < tree.size

theorem IsGrounded.isRanked {tree : DeclTree} (grounded : tree.IsGrounded) : tree.IsRanked id :=
  ⟨grounded.parent_lt, grounded.lt_child, grounded.child_lt, fun inside => inside⟩

theorem ancestorsTo_eq_nil {tree : DeclTree} {id : DeclId} (top : tree.semanticParent id = none)
    (depth : Nat) : tree.ancestorsTo depth id = [] := by
  cases depth with
  | zero => rfl
  | succ depth => rw [ancestorsTo, top]

namespace IsRanked

variable {tree : DeclTree} {rank : DeclId → Nat} (ranked : tree.IsRanked rank)
include ranked

theorem ancestorsTo_eq {depth more : Nat} {id : DeclId} (here : rank id ≤ depth)
    (there : rank id ≤ more) : tree.ancestorsTo depth id = tree.ancestorsTo more id := by
  induction depth generalizing more id with
  | zero =>
      have top : tree.semanticParent id = none := by
        by_contra below
        obtain ⟨parent, inside⟩ := Option.ne_none_iff_exists'.mp below
        exact absurd ((ranked.parent_lt inside).trans_le here) (Nat.not_lt_zero _)
      rw [ancestorsTo_eq_nil top, ancestorsTo_eq_nil top]
  | succ depth ih =>
      cases inside : tree.semanticParent id with
      | none => rw [ancestorsTo_eq_nil inside, ancestorsTo_eq_nil inside]
      | some parent =>
          have above := ranked.parent_lt inside
          cases more with
          | zero => exact absurd (above.trans_le there) (Nat.not_lt_zero _)
          | succ more =>
              rw [ancestorsTo, ancestorsTo, inside]
              exact congrArg (parent :: ·) (ih (Nat.le_of_lt_succ (above.trans_le here))
                (Nat.le_of_lt_succ (above.trans_le there)))

/-- The way up goes through the scope. -/
theorem ancestors_eq (id : DeclId) :
    tree.ancestors id =
      match tree.semanticParent id with
      | none => []
      | some parent => parent :: tree.ancestors parent := by
  cases inside : tree.semanticParent id with
  | none => exact ancestorsTo_eq_nil inside _
  | some parent =>
      have within := ranked.lt_size (lt_size_of_semanticParent inside)
      rw [ancestors, ranked.ancestorsTo_eq within.le (Nat.le_succ_of_le within.le), ancestorsTo,
        inside]
      rfl

theorem ranksChildren : tree.RanksChildren rank :=
  ⟨ranked.lt_child, fun member =>
    (ranked.lt_child member).trans (ranked.lt_size (ranked.child_lt member))⟩

end IsRanked

/-! ## The way down -/

theorem lt_size_of_mem_children {tree : DeclTree} {id child : DeclId}
    (member : child ∈ tree.children id) : id < tree.size := by
  by_contra outside
  rw [children, decl_of_size_le (Nat.le_of_not_lt outside)] at member
  cases member

/-- Where children come behind the declarations that they belong to, their place is a rank. -/
theorem ranksChildren_id {tree : DeclTree}
    (behind : ∀ {id child : DeclId}, child ∈ tree.children id → id < child) :
    tree.RanksChildren id :=
  ⟨behind, lt_size_of_mem_children⟩

namespace RanksChildren

variable {tree : DeclTree} {rank : DeclId → Nat} (ranks : tree.RanksChildren rank)
include ranks

theorem children_eq_nil {id : DeclId} (large : tree.size ≤ rank id) : tree.children id = [] :=
  List.eq_nil_iff_forall_not_mem.mpr fun _ member =>
    absurd (ranks.lt_size member) (Nat.not_lt.mpr large)

/-- What holds of each declaration whose children it holds of holds of all. -/
theorem induction {motive : DeclId → Prop}
    (step : ∀ id, (∀ child ∈ tree.children id, motive child) → motive id) (id : DeclId) :
    motive id := by
  induction remaining : tree.size - rank id using Nat.strong_induction_on generalizing id with
  | h remaining ih =>
      refine step id fun child member => ih _ ?_ child rfl
      have within := ranks.lt_size member
      have further := ranks.lt_child member
      omega

theorem descendantsTo_eq {depth more : Nat} {id : DeclId} (here : tree.size ≤ depth + rank id)
    (there : tree.size ≤ more + rank id) :
    tree.descendantsTo depth id = tree.descendantsTo more id := by
  induction depth generalizing more id with
  | zero =>
      have leaf := ranks.children_eq_nil (Nat.zero_add (rank id) ▸ here)
      cases more <;> simp only [descendantsTo, leaf, List.flatMap_nil]
  | succ depth ih =>
      cases more with
      | zero =>
          have leaf := ranks.children_eq_nil (Nat.zero_add (rank id) ▸ there)
          simp only [descendantsTo, leaf, List.flatMap_nil]
      | succ more =>
          rw [descendantsTo, descendantsTo]
          refine List.flatMap_congr fun child member => congrArg (child :: ·) ?_
          have further := ranks.lt_child member
          exact ih (by omega) (by omega)

/-- The way down goes through the children. -/
theorem descendants_eq (id : DeclId) :
    tree.descendants id =
      (tree.children id).flatMap fun child => child :: tree.descendants child := by
  rw [descendants, ranks.descendantsTo_eq (Nat.le_add_right _ _)
    ((Nat.le_succ _).trans (Nat.le_add_right _ (rank id))), descendantsTo]
  rfl

end RanksChildren

end DeclTree

end Bindery
