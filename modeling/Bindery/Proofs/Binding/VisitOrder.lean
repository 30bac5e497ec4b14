import Bindery.Proofs.Binding.Walks
import Bindery.Proofs.Tree.StackWalk

/-!
# The order of visits

In a forest no declaration stands twice in the order in which the traversal comes to them: whatever
is below one of two siblings is not below the other.
-/

set_option autoImplicit false

namespace Bindery

namespace UnitContext

variable {context : UnitContext}

theorem nodup_nestedDeclarations {tree : DeclTree} {id : DeclId} (once : (tree.children id).Nodup) :
    (nestedDeclarations tree id).Nodup := by
  unfold nestedDeclarations
  dsimp only
  refine ((once.filter _).append (once.filter _) ?_).append (once.filter _) ?_
  · intro child nested enum
    simp only [List.mem_filter, Bool.and_eq_true, beq_iff_eq] at nested enum
    simp [enum.2.1, DeclKind.isRecord] at nested
  · intro child other named
    simp only [List.mem_append, List.mem_filter, Bool.and_eq_true, beq_iff_eq] at other named
    rcases other with ⟨-, nested⟩ | ⟨-, isEnum, -⟩
    · cases kind : (tree.decl child).kind <;>
        simp [kind, DeclKind.isRecord, DeclKind.isTypedef] at nested named
    · simp [isEnum, DeclKind.isTypedef] at named

/-- Behind a declaration come the orders of some of its children. -/
theorem exists_visitOrderTo_succ (context : UnitContext) (depth : Nat) (id : DeclId) :
    ∃ inside : List DeclId, (∀ child ∈ inside, child ∈ context.tree.children id) ∧
      ((context.tree.children id).Nodup → inside.Nodup) ∧
      context.visitOrderTo (depth + 1) id = id :: inside.flatMap (context.visitOrderTo depth) := by
  rw [visitOrderTo]
  dsimp only
  split
  case h_1 | h_2 =>
    exact ⟨_, fun child member => List.mem_of_mem_filter member, fun once => once.filter _, rfl⟩
  case h_3 | h_4 =>
    refine ⟨_, fun child member => ?_, fun once => ?_, rfl⟩
    · exact mem_children_of_mem_nestedDeclarations (List.mem_of_mem_filter member)
    · exact (nodup_nestedDeclarations once).filter _
  case h_5 => exact ⟨[], List.forall_mem_nil _, fun _ => List.nodup_nil, rfl⟩

theorem isUnder_of_mem_visitOrderTo {depth : Nat} {id inner : DeclId}
    (member : inner ∈ context.visitOrderTo depth id) : context.tree.IsUnder inner id := by
  induction depth generalizing id with
  | zero => cases member
  | succ depth ih =>
      obtain ⟨inside, children, -, order⟩ := exists_visitOrderTo_succ context depth id
      rw [order] at member
      rcases List.mem_cons.mp member with rfl | behind
      · exact .refl
      · obtain ⟨child, listed, below⟩ := List.mem_flatMap.mp behind
        exact (ih below).tail (children child listed)

section

variable (forest : context.tree.IsForest)
include forest

theorem nodup_flatMap_visitOrderTo {depth : Nat}
    (each : ∀ id, (context.visitOrderTo depth id).Nodup) {outer : DeclId} {ids : List DeclId}
    (siblings : ∀ id ∈ ids, id ∈ context.tree.children outer) (once : ids.Nodup) :
    (ids.flatMap (context.visitOrderTo depth)).Nodup := by
  refine List.nodup_flatMap.mpr ⟨fun id _ => each id, ?_⟩
  refine once.imp_of_mem fun {first second} isFirst isSecond apart => ?_
  intro inner inFirst inSecond
  exact apart (DeclTree.eq_of_isUnder forest.lt_child forest.alone (siblings first isFirst)
    (siblings second isSecond) (isUnder_of_mem_visitOrderTo inFirst) (isUnder_of_mem_visitOrderTo inSecond))

theorem nodup_visitOrderTo (depth : Nat) (id : DeclId) : (context.visitOrderTo depth id).Nodup := by
  induction depth generalizing id with
  | zero => exact List.nodup_nil
  | succ depth ih =>
      obtain ⟨inside, children, once, order⟩ :=
        exists_visitOrderTo_succ context depth id
      rw [order]
      refine List.nodup_cons.mpr ⟨fun member => ?_,
        nodup_flatMap_visitOrderTo forest ih children (once (forest.once id))⟩
      obtain ⟨child, listed, below⟩ := List.mem_flatMap.mp member
      have under : child ≤ id :=
        DeclTree.le_of_isUnder forest.lt_child (isUnder_of_mem_visitOrderTo below)
      exact absurd (forest.lt_child (children child listed)) (Nat.not_lt_of_le under)

/-- In a forest no declaration is visited twice. -/
theorem nodup_visitOrder : context.visitOrder.Nodup :=
  nodup_flatMap_visitOrderTo forest (nodup_visitOrderTo forest _)
    (fun _ member => List.mem_of_mem_filter member) ((forest.once _).filter _)

end

end UnitContext

end Bindery
