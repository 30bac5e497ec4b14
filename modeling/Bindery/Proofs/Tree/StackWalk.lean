import Bindery.Proofs.Tree.Rank
import Mathlib.Data.List.Nodup
import Mathlib.Data.List.Pairwise
import Mathlib.Logic.Relation

/-!
# Walking with a stack

The declarations below another can be told by a loop in place of a recursion: those still to be
told wait on a stack, and whenever one is told its children are put in its place, the last one
first.  Where children come behind the declarations that they belong to, the loop ends with the
declarations that the recursion tells, in the same order.
-/

set_option autoImplicit false

namespace Bindery

namespace DeclTree

/-- The state of the loop: the declarations that wait, the next one at the end, and those told. -/
structure StackWalk where
  stack : List DeclId
  told : List DeclId
deriving Repr, DecidableEq

namespace StackWalk

/-- The walk below a declaration begins with its children, the last one first. -/
def start (tree : DeclTree) (id : DeclId) : StackWalk :=
  ⟨(tree.children id).reverse, []⟩

/-- A turn takes a declaration from the stack, tells it and puts its children there, the last one
first.  There is none if nothing waits. -/
def turn? (tree : DeclTree) (walk : StackWalk) : Option StackWalk :=
  walk.stack.getLast?.map fun next =>
    ⟨walk.stack.dropLast ++ (tree.children next).reverse, walk.told ++ [next]⟩

/-- What a walk has told when nothing waits any more, if that takes no more turns than given. -/
def run? (tree : DeclTree) : Nat → StackWalk → Option (List DeclId)
  | 0, walk => if walk.stack.isEmpty then some walk.told else none
  | turns + 1, walk =>
      match walk.turn? tree with
      | none => some walk.told
      | some later => run? tree turns later

/-- What is still to be told: each declaration that waits, followed by those below it. -/
def remaining (tree : DeclTree) (walk : StackWalk) : List DeclId :=
  walk.stack.reverse.flatMap fun id => id :: tree.descendants id

variable {tree : DeclTree} {rank : DeclId → Nat}

theorem turn?_eq_none_iff {walk : StackWalk} : walk.turn? tree = none ↔ walk.stack = [] := by
  rw [turn?, Option.map_eq_none_iff, List.getLast?_eq_none_iff]

section

variable (ranks : tree.RanksChildren rank)
include ranks

/-- A turn tells the first declaration that is still to be told, and leaves the others. -/
theorem exists_told_of_turn? {walk later : StackWalk} (turns : walk.turn? tree = some later) :
    ∃ next, later.told = walk.told ++ [next] ∧
      walk.remaining tree = next :: later.remaining tree := by
  obtain ⟨next, last, rfl⟩ := Option.map_eq_some_iff.mp turns
  obtain ⟨others, stacked⟩ := List.getLast?_eq_some_iff.mp last
  refine ⟨next, rfl, ?_⟩
  have below := ranks.descendants_eq next
  simp [remaining, stacked, below]

theorem run?_eq (turns : Nat) (walk : StackWalk) :
    run? tree turns walk =
      if (walk.remaining tree).length ≤ turns then some (walk.told ++ walk.remaining tree)
      else none := by
  induction turns generalizing walk with
  | zero =>
      rw [run?, remaining]
      cases walk.stack <;> simp
  | succ turns ih =>
      rw [run?]
      cases next : walk.turn? tree with
      | none => simp [remaining, turn?_eq_none_iff.mp next]
      | some later =>
          obtain ⟨told, tells, rest⟩ := exists_told_of_turn? ranks next
          simp [ih, rest, tells]

theorem run?_start (turns : Nat) (id : DeclId) :
    run? tree turns (start tree id) =
      if (tree.descendants id).length ≤ turns then some (tree.descendants id) else none := by
  have all : (start tree id).remaining tree = tree.descendants id := by
    rw [remaining, start, List.reverse_reverse, ranks.descendants_eq]
  rw [run?_eq ranks, all, start, List.nil_append]

end

end StackWalk

/-! ## What is below -/

/-- Whether a declaration is another one or, some children down, below it. -/
def IsUnder (tree : DeclTree) : DeclId → DeclId → Prop :=
  Relation.ReflTransGen fun child id => child ∈ tree.children id

/-- Whether a declaration is below another, one or more children down. -/
def IsBelow (tree : DeclTree) : DeclId → DeclId → Prop :=
  Relation.TransGen fun child id => child ∈ tree.children id

section

variable {tree : DeclTree} {low high first second outer : DeclId}
  (behind : ∀ {id child : DeclId}, child ∈ tree.children id → id < child)
include behind

theorem lt_of_isBelow (below : tree.IsBelow low high) : high < low := by
  induction below with
  | single child => exact behind child
  | tail _ child ih => exact (behind child).trans ih

theorem le_of_isUnder (under : tree.IsUnder low high) : high ≤ low := by
  rcases Relation.reflTransGen_iff_eq_or_transGen.mp under with rfl | below
  · exact Nat.le_refl _
  · exact (lt_of_isBelow behind below).le

theorem mem_descendants_iff {id : DeclId} : low ∈ tree.descendants id ↔ tree.IsBelow low id := by
  have ranks := ranksChildren_id behind
  induction id using ranks.induction with
  | step id ih =>
      rw [ranks.descendants_eq, List.mem_flatMap, IsBelow, Relation.transGen_iff]
      simp only [List.mem_cons, and_or_left, exists_or]
      refine or_congr ⟨fun ⟨child, held, same⟩ => same ▸ held, fun held => ⟨low, held, rfl⟩⟩ ?_
      refine exists_congr fun child => ?_
      rw [and_comm]
      exact and_congr_left fun held => ih child held

theorem isUnder_of_mem {id : DeclId} (told : low ∈ id :: tree.descendants id) :
    tree.IsUnder low id := by
  rcases List.mem_cons.mp told with rfl | below
  · exact .refl
  · exact ((mem_descendants_iff behind).mp below).to_reflTransGen

variable (alone : ∀ {first second child : DeclId}, child ∈ tree.children first →
  child ∈ tree.children second → first = second)
include alone

/-- No sibling is below another. -/
theorem eq_of_isUnder_sibling (isFirst : first ∈ tree.children outer)
    (isSecond : second ∈ tree.children outer) (under : tree.IsUnder first second) :
    first = second := by
  rcases Relation.ReflTransGen.cases_head under with same | ⟨parent, child, up⟩
  · exact same
  · rw [alone child isFirst] at up
    have below : second ≤ outer := le_of_isUnder behind up
    exact absurd (behind isSecond) (Nat.not_lt_of_le below)

theorem eq_of_isUnder (isFirst : first ∈ tree.children outer)
    (isSecond : second ∈ tree.children outer) (underFirst : tree.IsUnder low first)
    (underSecond : tree.IsUnder low second) : first = second := by
  have unique : Relator.RightUnique fun child id => child ∈ tree.children id :=
    fun _ _ _ left right => alone left right
  rcases Relation.ReflTransGen.total_of_right_unique unique underFirst underSecond with up | up
  · exact eq_of_isUnder_sibling behind alone isFirst isSecond up
  · exact (eq_of_isUnder_sibling behind alone isSecond isFirst up).symm

/-- Without a declaration that is a child twice none is told twice. -/
theorem nodup_descendants (once : ∀ id, (tree.children id).Nodup) (id : DeclId) :
    (tree.descendants id).Nodup := by
  have ranks := ranksChildren_id behind
  induction id using ranks.induction with
  | step id ih =>
      rw [ranks.descendants_eq]
      refine List.nodup_flatMap.mpr ⟨fun child held => ?_, ?_⟩
      · refine List.nodup_cons.mpr ⟨fun below => ?_, ih child held⟩
        exact Nat.lt_irrefl _ (lt_of_isBelow behind ((mem_descendants_iff behind).mp below))
      · refine (once id).imp_of_mem fun {first second} isFirst isSecond apart => ?_
        intro low inFirst inSecond
        exact apart (eq_of_isUnder behind alone isFirst isSecond (isUnder_of_mem behind inFirst)
          (isUnder_of_mem behind inSecond))

end

theorem alone_of_nodup {tree : DeclTree} (once : (tree.ids.flatMap tree.children).Nodup)
    {first second child : DeclId} (isFirst : child ∈ tree.children first)
    (isSecond : child ∈ tree.children second) : first = second := by
  have listed {id : DeclId} (held : child ∈ tree.children id) : id ∈ tree.ids :=
    List.mem_range.mpr (lt_size_of_mem_children held)
  have symm : Std.Symm (Function.onFun List.Disjoint tree.children) :=
    ⟨fun _ _ apart _ isFirst isSecond => apart isSecond isFirst⟩
  by_contra apart
  have disjoint := (List.nodup_flatMap.mp once).2.forall (listed isFirst) (listed isSecond) apart
  exact disjoint isFirst isSecond

theorem children_nodup {tree : DeclTree} (once : (tree.ids.flatMap tree.children).Nodup)
    (id : DeclId) : (tree.children id).Nodup := by
  by_cases inside : id < tree.size
  · exact (List.nodup_flatMap.mp once).1 id (List.mem_range.mpr inside)
  · rw [children, decl_of_size_le (Nat.le_of_not_lt inside)]
    exact List.nodup_nil

/-- Where children come behind the declarations that they belong to, the walk with a stack ends with
what the recursion tells: each child in order, followed by what is below it.  These are the
declarations below, and none of them twice if none is a child twice. -/
theorem stack_walk_is_preorder {tree : DeclTree}
    (behind : ∀ {id child : DeclId}, child ∈ tree.children id → id < child) (id : DeclId) :
    (∀ turns, StackWalk.run? tree turns (StackWalk.start tree id) =
      if (tree.descendants id).length ≤ turns then some (tree.descendants id) else none) ∧
    (tree.descendants id =
      (tree.children id).flatMap fun child => child :: tree.descendants child) ∧
    ((tree.ids.flatMap tree.children).Nodup → (tree.descendants id).Nodup) ∧
    ∀ low, low ∈ tree.descendants id ↔ tree.IsBelow low id :=
  ⟨fun turns => StackWalk.run?_start (ranksChildren_id behind) turns id,
    (ranksChildren_id behind).descendants_eq id,
    fun once => nodup_descendants behind (alone_of_nodup once) (children_nodup once) id,
    fun _ => mem_descendants_iff behind⟩

/-- Two namespaces in a row, the first one with a class that has a method. -/
def shelfTree : DeclTree :=
  ((TreeBuilder.start "/src/unit.hpp").performAll
    [.builtin "int",
     .add 0 .namespaceDecl "a",
     .add 0 .namespaceDecl "c",
     .add 1 .classDecl "B",
     .function .method 3 "f" 0]).tree

theorem shelf_is_walked :
    (∀ turns ≥ 4, StackWalk.run? shelfTree turns (StackWalk.start shelfTree 0) =
      some [1, 3, 4, 2]) ∧
    (shelfTree.descendants 0).Nodup ∧ shelfTree.IsBelow 4 1 := by
  have grounded : shelfTree.IsGrounded :=
    TreeBuilder.start_performAll_isGrounded "/src/unit.hpp" (by decide +kernel)
  have told : shelfTree.descendants 0 = [1, 3, 4, 2] := by decide +kernel
  obtain ⟨walked, -, once, -⟩ := stack_walk_is_preorder grounded.lt_child 0
  obtain ⟨-, -, -, below⟩ := stack_walk_is_preorder grounded.lt_child 1
  refine ⟨fun turns enough => ?_, once (by decide +kernel), (below 4).mp (by decide +kernel)⟩
  rw [walked, told]
  exact if_pos enough

end DeclTree

end Bindery
