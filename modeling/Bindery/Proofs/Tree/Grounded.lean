import Bindery.Tree.Build
import Mathlib.Order.Nat

/-!
# Trees without cycles

A step can add a declaration only below one that is there already.  So in a tree that steps have
built each declaration comes behind the scope it belongs to and before its children, and neither
the way up nor the way down from a declaration goes on for ever.  And since a step adds a
declaration that was not there, each is a child once and of one declaration at most.
-/

set_option autoImplicit false

namespace Bindery

namespace DeclTree

/-- Each declaration comes behind its scope and before its children, which are in the tree. -/
structure IsGrounded (tree : DeclTree) : Prop where
  parent_lt : ∀ {id parent : DeclId}, tree.semanticParent id = some parent → parent < id
  lt_child : ∀ {id child : DeclId}, child ∈ tree.children id → id < child
  child_lt : ∀ {id child : DeclId}, child ∈ tree.children id → child < tree.size

/-- No declaration is a child twice, be it of one declaration or of two. -/
structure IsForest (tree : DeclTree) : Prop extends tree.IsGrounded where
  once : ∀ id, (tree.children id).Nodup
  alone : ∀ {first second child : DeclId}, child ∈ tree.children first →
    child ∈ tree.children second → first = second

/-- A declaration that a template was instantiated to is a child of none.  All others, the unit
apart, are children of the declaration that they belong to. -/
structure IsPlanted (tree : DeclTree) : Prop extends tree.IsForest where
  held : ∀ {id : DeclId}, id < tree.size → id ≠ root →
    (tree.decl id).specializedTemplate = none →
    ∃ parent, tree.semanticParent id = some parent ∧
      (tree.decl id).lexicalParent = some parent ∧ id ∈ tree.children parent
  original : ∀ {id child : DeclId}, child ∈ tree.children id →
    (tree.decl child).specializedTemplate = none

theorem decl_of_size_le {tree : DeclTree} {id : DeclId} (outside : tree.size ≤ id) :
    tree.decl id = Decl.make .other "" := by
  rw [decl, Array.getD]
  exact dif_neg (Nat.not_lt_of_le outside)

theorem lt_size_of_kind {tree : DeclTree} {id : DeclId} (known : (tree.decl id).kind ≠ .other) :
    id < tree.size := by
  by_contra outside
  rw [decl_of_size_le (Nat.le_of_not_lt outside)] at known
  exact known rfl

theorem lt_size_of_semanticParent {tree : DeclTree} {id parent : DeclId}
    (inside : tree.semanticParent id = some parent) : id < tree.size := by
  by_contra outside
  rw [semanticParent, decl_of_size_le (Nat.le_of_not_lt outside)] at inside
  cases inside

theorem empty_isGrounded : empty.IsGrounded := by
  have alone : ∀ id, (empty.decl id).semanticParent = none ∧ (empty.decl id).children = [] := by
    intro id
    cases id <;> exact ⟨rfl, rfl⟩
  constructor
  · intro id parent inside
    rw [semanticParent, (alone id).1] at inside
    cases inside
  all_goals
    intro id child member
    rw [children, (alone id).2] at member
    cases member

theorem decl_pushDecl (tree : DeclTree) (added : Decl) (id : DeclId) :
    (tree.pushDecl added).1.decl id = if id = tree.size then added else tree.decl id := by
  simp only [pushDecl, decl, size, Array.getD_eq_getD_getElem?, Array.getElem?_push]
  split <;> rfl

theorem decl_modifyDecl (tree : DeclTree) (changed : DeclId) (change : Decl → Decl)
    (id : DeclId) :
    (tree.modifyDecl changed change).decl id =
      if changed = id ∧ id < tree.size then change (tree.decl id) else tree.decl id := by
  simp only [modifyDecl, decl, size, Array.getD_eq_getD_getElem?, Array.getElem?_modify]
  by_cases same : changed = id
  · by_cases inside : id < tree.decls.size
    · simp [same, inside]
    · simp [same, inside]
  · simp [same]

theorem empty_isForest : empty.IsForest := by
  have none : ∀ id, empty.children id = [] := by
    intro id
    cases id <;> rfl
  refine ⟨empty_isGrounded, fun id => ?_, fun {first second child} member => ?_⟩
  · rw [none]
    exact List.nodup_nil
  · rw [none] at member
    cases member

theorem empty_isPlanted : empty.IsPlanted := by
  refine ⟨empty_isForest, fun {id} inside apart _ => ?_, fun {id child} member => ?_⟩
  · exact absurd (Nat.lt_one_iff.mp inside) apart
  · exact absurd (empty_isForest.child_lt member)
      (Nat.not_lt_of_le (Nat.one_le_of_lt (empty_isForest.lt_child member)))

theorem children_pushDecl {tree : DeclTree} {added : Decl} (leaf : added.children = [])
    (id : DeclId) : (tree.pushDecl added).1.children id = tree.children id := by
  rw [children, decl_pushDecl]
  split
  case isTrue last =>
    rw [leaf, children, decl_of_size_le last.ge]
    rfl
  case isFalse => rfl

@[simp] theorem size_pushDecl (tree : DeclTree) (added : Decl) :
    (tree.pushDecl added).1.size = tree.size + 1 :=
  Array.size_push ..

@[simp] theorem size_modifyDecl (tree : DeclTree) (id : DeclId) (change : Decl → Decl) :
    (tree.modifyDecl id change).size = tree.size :=
  Array.size_modify

namespace IsGrounded

variable {tree : DeclTree}

/-- A declaration without children may be added to a scope that is there. -/
theorem pushDecl (grounded : tree.IsGrounded) {added : Decl} (leaf : added.children = [])
    (inside : ∀ parent, added.semanticParent = some parent → parent < tree.size) :
    (tree.pushDecl added).1.IsGrounded := by
  constructor
  · intro id parent within
    rw [semanticParent, decl_pushDecl] at within
    split at within
    case isTrue last => exact last ▸ inside parent within
    case isFalse => exact grounded.parent_lt within
  · intro id child member
    rw [children, decl_pushDecl] at member
    split at member
    case isTrue => rw [leaf] at member; cases member
    case isFalse => exact grounded.lt_child member
  · intro id child member
    rw [children, decl_pushDecl] at member
    rw [size_pushDecl]
    split at member
    case isTrue => rw [leaf] at member; cases member
    case isFalse => exact Nat.lt_succ_of_lt (grounded.child_lt member)

/-- A declaration may be changed as long as its scope stays and its children are in order. -/
theorem modifyDecl (grounded : tree.IsGrounded) (changed : DeclId) {change : Decl → Decl}
    (scope : (change (tree.decl changed)).semanticParent = (tree.decl changed).semanticParent)
    (inOrder : ∀ child ∈ (change (tree.decl changed)).children,
      changed < child ∧ child < tree.size) :
    (tree.modifyDecl changed change).IsGrounded := by
  constructor
  · intro id parent within
    rw [semanticParent, decl_modifyDecl] at within
    split at within
    case isTrue same =>
      obtain ⟨rfl, -⟩ := same
      exact grounded.parent_lt (scope.symm.trans within)
    case isFalse => exact grounded.parent_lt within
  · intro id child member
    rw [children, decl_modifyDecl] at member
    split at member
    case isTrue same =>
      obtain ⟨rfl, -⟩ := same
      exact (inOrder child member).1
    case isFalse => exact grounded.lt_child member
  · intro id child member
    rw [children, decl_modifyDecl] at member
    rw [size_modifyDecl]
    split at member
    case isTrue same =>
      obtain ⟨rfl, -⟩ := same
      exact (inOrder child member).2
    case isFalse => exact grounded.child_lt member

theorem pushChild (grounded : tree.IsGrounded) {parent : DeclId} {added : Decl}
    (leaf : added.children = []) (inside : parent < tree.size) :
    (tree.pushChild parent added).1.IsGrounded := by
  have pushed : (tree.pushDecl
      { added with semanticParent := some parent, lexicalParent := some parent }).1.IsGrounded := by
    refine grounded.pushDecl leaf fun scope same => ?_
    cases same
    exact inside
  refine pushed.modifyDecl parent rfl fun child member => ?_
  rw [size_pushDecl]
  rcases List.mem_append.mp member with old | new
  · exact ⟨pushed.lt_child old, (size_pushDecl tree _) ▸ pushed.child_lt old⟩
  · cases List.mem_singleton.mp new
    exact ⟨inside, Nat.lt_succ_self _⟩

end IsGrounded

theorem decl_pushChild (tree : DeclTree) {parent : DeclId} (added : Decl)
    (inside : parent < tree.size) (id : DeclId) :
    (tree.pushChild parent added).1.decl id =
      if id = tree.size then
        { added with semanticParent := some parent, lexicalParent := some parent }
      else if id = parent then
        { tree.decl id with children := tree.children id ++ [tree.size] }
      else tree.decl id := by
  rw [pushChild, decl_modifyDecl, size_pushDecl, decl_pushDecl]
  by_cases new : id = tree.size
  · have apart : ¬ (parent = id ∧ id < tree.size + 1) := fun both => inside.ne (both.1.trans new)
    rw [if_neg apart, if_pos new, if_pos new]
  · rw [if_neg new, if_neg new]
    by_cases here : id = parent
    · rw [if_pos ⟨here.symm, here ▸ Nat.lt_succ_of_lt inside⟩, if_pos here]
      rfl
    · rw [if_neg fun both => here both.1.symm, if_neg here]

theorem children_pushChild {tree : DeclTree} {parent : DeclId} {added : Decl}
    (leaf : added.children = []) (inside : parent < tree.size) (id : DeclId) :
    (tree.pushChild parent added).1.children id =
      if id = parent then tree.children id ++ [tree.size] else tree.children id := by
  rw [children, decl_pushChild tree added inside]
  by_cases new : id = tree.size
  · have none : tree.children id = [] := by
      rw [children, decl_of_size_le new.ge]
      rfl
    rw [if_pos new, if_neg (new ▸ inside.ne'), none]
    exact leaf
  · rw [if_neg new]
    split <;> rfl

namespace IsForest

variable {tree : DeclTree}

/-- A forest stays one as long as it stays grounded and no children are added. -/
theorem of_children {changed : DeclTree} (forest : tree.IsForest) (grounded : changed.IsGrounded)
    (same : ∀ id, changed.children id = tree.children id) : changed.IsForest := by
  refine ⟨grounded, fun id => ?_, fun {first second child} isFirst isSecond => ?_⟩
  · rw [same]
    exact forest.once id
  · rw [same] at isFirst isSecond
    exact forest.alone isFirst isSecond

/-- The declaration that is added is a child of nothing yet. -/
theorem pushChild (forest : tree.IsForest) {parent : DeclId} {added : Decl}
    (leaf : added.children = []) (inside : parent < tree.size) :
    (tree.pushChild parent added).1.IsForest := by
  have new (id : DeclId) : tree.size ∉ tree.children id := fun member =>
    Nat.lt_irrefl _ (forest.child_lt member)
  refine ⟨forest.toIsGrounded.pushChild leaf inside, fun id => ?_,
    fun {first second child} isFirst isSecond => ?_⟩
  · rw [children_pushChild leaf inside]
    split
    · refine List.nodup_append.mpr ⟨forest.once id, by simp, ?_⟩
      intro child member other isNew same
      rw [same, List.mem_singleton.mp isNew] at member
      exact new id member
    · exact forest.once id
  · rw [children_pushChild leaf inside] at isFirst isSecond
    by_cases isNew : child = tree.size
    · subst isNew
      have only {id : DeclId} (member : tree.size ∈ if id = parent then
          tree.children id ++ [tree.size] else tree.children id) : id = parent := by
        by_contra other
        rw [if_neg other] at member
        exact new id member
      exact (only isFirst).trans (only isSecond).symm
    · have old {id : DeclId} (member : child ∈ if id = parent then
          tree.children id ++ [tree.size] else tree.children id) : child ∈ tree.children id := by
        split at member
        · exact (List.mem_append.mp member).resolve_right (by simpa using isNew)
        · exact member
      exact forest.alone (old isFirst) (old isSecond)

end IsForest

theorem size_pushChild (tree : DeclTree) (parent : DeclId) (added : Decl) :
    (tree.pushChild parent added).1.size = tree.size + 1 := by
  rw [pushChild, size_modifyDecl, size_pushDecl]

end DeclTree

/-- What tells the place of a declaration in its tree. -/
def Decl.place (decl : Decl) : Option DeclId × Option DeclId × List DeclId × Option DeclId :=
  (decl.semanticParent, decl.lexicalParent, decl.children, decl.specializedTemplate)

namespace DeclTree.IsPlanted

variable {tree : DeclTree} (planted : tree.IsPlanted)
include planted

/-- Declarations may be changed as long as they keep their places. -/
theorem of_place {later : DeclTree} (size : later.size = tree.size)
    (same : ∀ id, (later.decl id).place = (tree.decl id).place) : later.IsPlanted := by
  have parents (id : DeclId) : later.semanticParent id = tree.semanticParent id :=
    congrArg Prod.fst (same id)
  have lexical (id : DeclId) : (later.decl id).lexicalParent = (tree.decl id).lexicalParent :=
    congrArg (·.2.1) (same id)
  have children (id : DeclId) : later.children id = tree.children id :=
    congrArg (·.2.2.1) (same id)
  have template (id : DeclId) :
      (later.decl id).specializedTemplate = (tree.decl id).specializedTemplate :=
    congrArg (·.2.2.2) (same id)
  have grounded : later.IsGrounded :=
    ⟨fun within => planted.parent_lt (parents _ ▸ within),
      fun member => planted.lt_child (children _ ▸ member),
      fun member => size ▸ planted.child_lt (children _ ▸ member)⟩
  refine ⟨planted.toIsForest.of_children grounded children, fun {id} inside apart own => ?_,
    fun {id child} member => ?_⟩
  · obtain ⟨parent, within, around, held⟩ :=
      planted.held (size ▸ inside) apart ((template id).symm.trans own)
    exact ⟨parent, (parents id).trans within, (lexical id).trans around,
      (children parent).symm ▸ held⟩
  · rw [template]
    exact planted.original (children id ▸ member)

theorem pushChild {parent : DeclId} {added : Decl} (leaf : added.children = [])
    (own : added.specializedTemplate = none) (inside : parent < tree.size) :
    (tree.pushChild parent added).1.IsPlanted := by
  have children := @children_pushChild tree parent added leaf inside
  have new : (tree.pushChild parent added).1.decl tree.size =
      { added with semanticParent := some parent, lexicalParent := some parent } := by
    rw [decl_pushChild tree added inside, if_pos rfl]
  have old {id : DeclId} (apart : id ≠ tree.size) :
      (tree.pushChild parent added).1.semanticParent id = tree.semanticParent id ∧
      ((tree.pushChild parent added).1.decl id).lexicalParent = (tree.decl id).lexicalParent ∧
      ((tree.pushChild parent added).1.decl id).specializedTemplate =
        (tree.decl id).specializedTemplate := by
    rw [semanticParent, decl_pushChild tree added inside, if_neg apart]
    split <;> exact ⟨rfl, rfl, rfl⟩
  refine ⟨planted.toIsForest.pushChild leaf inside, fun {id} within apart original => ?_,
    fun {id child} member => ?_⟩
  · by_cases last : id = tree.size
    · subst last
      refine ⟨parent, congrArg Decl.semanticParent new, congrArg Decl.lexicalParent new, ?_⟩
      rw [children, if_pos rfl]
      exact List.mem_append_right _ List.mem_cons_self
    · rw [size_pushChild] at within
      obtain ⟨parents, lexical, template⟩ := old last
      obtain ⟨scope, inScope, around, held⟩ :=
        planted.held (Nat.lt_of_le_of_ne (Nat.le_of_lt_succ within) last) apart
          (template.symm.trans original)
      refine ⟨scope, parents.trans inScope, lexical.trans around, ?_⟩
      rw [children]
      split
      · exact List.mem_append_left _ held
      · exact held
  · by_cases last : child = tree.size
    · rw [last, new]
      exact own
    · rw [(old last).2.2]
      rw [children] at member
      have old : child ∈ tree.children id := by
        split at member
        · exact (List.mem_append.mp member).resolve_right (by simpa using last)
        · exact member
      exact planted.original old

/-- A declaration that is no child comes from a template. -/
theorem pushDecl {added : Decl} (leaf : added.children = [])
    (instantiated : added.specializedTemplate.isSome)
    (inside : ∀ parent, added.semanticParent = some parent → parent < tree.size) :
    (tree.pushDecl added).1.IsPlanted := by
  have children := @children_pushDecl tree added leaf
  have old {id : DeclId} (apart : id ≠ tree.size) :
      (tree.pushDecl added).1.decl id = tree.decl id := by
    rw [decl_pushDecl, if_neg apart]
  refine ⟨planted.toIsForest.of_children (planted.toIsGrounded.pushDecl leaf inside) children,
    fun {id} within apart original => ?_, fun {id child} member => ?_⟩
  · by_cases last : id = tree.size
    · rw [last, decl_pushDecl, if_pos rfl] at original
      rw [original] at instantiated
      cases instantiated
    · rw [size_pushDecl] at within
      rw [old last] at original
      obtain ⟨scope, inScope, around, held⟩ :=
        planted.held (Nat.lt_of_le_of_ne (Nat.le_of_lt_succ within) last) apart original
      refine ⟨scope, ?_, ?_, (children scope).symm ▸ held⟩
      · rw [semanticParent, old last]
        exact inScope
      · rw [old last]
        exact around
  · rw [children] at member
    rw [old (planted.child_lt member).ne]
    exact planted.original member

end DeclTree.IsPlanted

/-! ## Computations that add to a tree -/

/-- A computation that keeps the declarations of a tree, `bound` of them or more, in their places,
puts others in theirs, and removes nothing. -/
def Build.Keeps (bound : Nat) {α : Type} (step : Build α) : Prop :=
  ∀ builder : TreeBuilder, builder.tree.IsPlanted → bound ≤ builder.tree.size →
    (step.run builder).2.tree.IsPlanted ∧ builder.tree.size ≤ (step.run builder).2.tree.size

namespace Build.Keeps

variable {bound : Nat} {α β : Type}

theorem of_decls_eq {step : Build α}
    (same : ∀ builder, (step.run builder).2.tree.decls = builder.tree.decls) :
    step.Keeps bound := by
  intro builder planted _
  have size : (step.run builder).2.tree.size = builder.tree.size :=
    congrArg Array.size (same builder)
  refine ⟨planted.of_place size fun id => ?_, size.ge⟩
  rw [DeclTree.decl, DeclTree.decl, same]

theorem pure (value : α) : Keeps bound (Pure.pure value : Build α) :=
  of_decls_eq fun _ => rfl

theorem get : Keeps bound (MonadState.get : Build TreeBuilder) :=
  of_decls_eq fun _ => rfl

theorem bind {first : Build α} {rest : α → Build β} (keepsFirst : first.Keeps bound)
    (keepsRest : ∀ value, (rest value).Keeps bound) : (first >>= rest).Keeps bound := by
  intro builder planted large
  obtain ⟨between, grows⟩ := keepsFirst builder planted large
  obtain ⟨after, growsOn⟩ :=
    keepsRest (first.run builder).1 (first.run builder).2 between (large.trans grows)
  exact ⟨after, grows.trans growsOn⟩

theorem map {step : Build α} (f : α → β) (keeps : step.Keeps bound) :
    (f <$> step).Keeps bound :=
  keeps

theorem forM {step : α → Build PUnit} (keeps : ∀ value, (step value).Keeps bound)
    (values : List α) : Keeps bound (values.forM step) := by
  induction values with
  | nil => exact .pure _
  | cons value rest ih => exact .bind (keeps value) fun _ => ih

theorem mapM {step : α → Build β} (keeps : ∀ value, (step value).Keeps bound)
    (values : List α) : Keeps bound (values.mapM step) := by
  induction values with
  | nil =>
      rw [List.mapM_nil]
      exact .pure []
  | cons value rest ih =>
      rw [List.mapM_cons]
      exact .bind (keeps value) fun _ => .bind ih fun _ => .pure _

end Build.Keeps

namespace TreeBuilder

variable {bound : Nat}

theorem decl_keeps (id : DeclId) : (decl id).Keeps bound :=
  .of_decls_eq fun _ => rfl

theorem type_keeps (id : TypeId) : (type id).Keeps bound :=
  .of_decls_eq fun _ => rfl

theorem pushType_keeps (type : CppType) : (pushType type).Keeps bound :=
  .of_decls_eq fun _ => rfl

theorem modifyDecl_keeps (id : DeclId) {change : Decl → Decl}
    (inPlace : ∀ decl, (change decl).place = decl.place) : (modifyDecl id change).Keeps bound := by
  intro builder planted _
  have size := DeclTree.size_modifyDecl builder.tree id change
  refine ⟨planted.of_place size fun other => ?_, size.ge⟩
  change ((builder.tree.modifyDecl id change).decl other).place = _
  rw [DeclTree.decl_modifyDecl]
  split
  · exact inPlace _
  · rfl

theorem setFlag_keeps (id : DeclId) (flag : DeclFlag) (on : Bool) :
    (setFlag id flag on).Keeps bound :=
  modifyDecl_keeps id fun _ => rfl

theorem setType_keeps (id : DeclId) (type : TypeId) : (setType id type).Keeps bound :=
  modifyDecl_keeps id fun _ => rfl

theorem setResult_keeps (id : DeclId) (type : TypeId) : (setResult id type).Keeps bound :=
  modifyDecl_keeps id fun _ => rfl

theorem setUnderlying_keeps (id : DeclId) (type : TypeId) :
    (setUnderlying id type).Keeps bound :=
  modifyDecl_keeps id fun _ => rfl

theorem setReferenced_keeps (id target : DeclId) : (setReferenced id target).Keeps bound :=
  modifyDecl_keeps id fun _ => rfl

theorem refreshDisplay_keeps (template : DeclId) : (refreshDisplay template).Keeps bound := by
  unfold refreshDisplay
  exact .bind .get fun _ => modifyDecl_keeps template fun _ => rfl

/-- A declaration is added to one that is there; what follows may add to both. -/
theorem add_bind_keeps {α : Type} {parent : DeclId} (kind : DeclKind) (name : String)
    {rest : DeclId → Build α} (inside : parent < bound)
    (keepsRest : ∀ id, bound ≤ id → (rest id).Keeps (id + 1)) :
    (add parent kind name >>= rest).Keeps bound := by
  intro builder planted large
  have size : ((add parent kind name).run builder).2.tree.size = builder.tree.size + 1 :=
    DeclTree.size_pushChild ..
  have pushed : ((add parent kind name).run builder).2.tree.IsPlanted :=
    planted.pushChild rfl rfl (inside.trans_le large)
  obtain ⟨after, grows⟩ := keepsRest builder.tree.size large _ pushed size.ge
  exact ⟨after, (Nat.le_succ _).trans (size.ge.trans grows)⟩

theorem add_keeps {parent : DeclId} (kind : DeclKind) (name : String) (inside : parent < bound) :
    (add parent kind name).Keeps bound := by
  have keeps := add_bind_keeps kind name inside fun id _ => Build.Keeps.pure id
  rwa [bind_pure] at keeps

/-! ## Types -/

theorem builtin_keeps (name : String) : (builtin name).Keeps bound := by
  unfold builtin
  refine .bind .get fun builder => ?_
  split
  · exact .pure _
  · exact .bind (pushType_keeps _) fun _ => .bind (.of_decls_eq fun _ => rfl) fun _ => .pure _

theorem wrap_keeps (kind : TypeKind) (inner : TypeId) (spelling : String) :
    (wrap kind inner spelling).Keeps bound := by
  unfold wrap
  refine .bind (type_keeps inner) fun found => ?_
  split
  · exact pushType_keeps _
  · exact .bind (type_keeps _) fun _ => .bind (pushType_keeps _) fun _ => pushType_keeps _

theorem derived_keeps (kind : TypeKind) (inner : TypeId) : (derived kind inner).Keeps bound := by
  unfold derived
  exact .bind (type_keeps inner) fun _ => wrap_keeps kind inner _

theorem const_keeps (id : TypeId) : (const id).Keeps bound := by
  unfold const
  refine .bind (type_keeps id) fun found => ?_
  dsimp only
  split
  · exact pushType_keeps _
  · exact .bind (type_keeps _) fun _ => .bind (pushType_keeps _) fun _ => pushType_keeps _

theorem constRef_keeps (id : TypeId) : (constRef id).Keeps bound := by
  unfold constRef
  exact .bind (const_keeps id) fun _ => derived_keeps _ _

theorem array_keeps (element : TypeId) (size : Nat) : (array element size).Keeps bound := by
  unfold array
  exact .bind (type_keeps element) fun _ => .bind (wrap_keeps _ _ _) fun _ =>
    .bind (.of_decls_eq fun _ => rfl) fun _ => .pure _

theorem once_keeps (id : DeclId) (type : CppType) : (once id type).Keeps bound := by
  unfold once
  refine .bind .get fun builder => ?_
  split
  · exact .pure _
  · exact .bind (pushType_keeps _) fun _ => .bind (.of_decls_eq fun _ => rfl) fun _ => .pure _

theorem record_keeps (id : DeclId) : (record id).Keeps bound := by
  unfold record
  exact .bind .get fun _ => .bind (decl_keeps id) fun _ => once_keeps id _

theorem enumType_keeps (id : DeclId) : (enumType id).Keeps bound := by
  unfold enumType
  exact .bind .get fun _ => once_keeps id _

theorem elaborated_keeps (named : TypeId) (declaration : DeclId) (written : String) :
    (elaborated named declaration written).Keeps bound := by
  unfold elaborated
  exact .bind .get fun _ => pushType_keeps _

theorem recordAs_keeps (id : DeclId) (written : String) : (recordAs id written).Keeps bound := by
  unfold recordAs
  exact .bind (record_keeps id) fun _ => elaborated_keeps _ _ _

theorem named_keeps (id : DeclId) : (named id).Keeps bound := by
  unfold named
  exact .bind (decl_keeps id) fun _ => recordAs_keeps id _

theorem namedEnum_keeps (id : DeclId) : (namedEnum id).Keeps bound := by
  unfold namedEnum
  exact .bind (enumType_keeps id) fun _ => .bind (decl_keeps id) fun _ => elaborated_keeps _ _ _

theorem typedefTypeAs_keeps (id : DeclId) (written : String) :
    (typedefTypeAs id written).Keeps bound := by
  unfold typedefTypeAs
  exact .bind .get fun _ => .bind (pushType_keeps _) fun _ => elaborated_keeps _ _ _

theorem typedefType_keeps (id : DeclId) : (typedefType id).Keeps bound := by
  unfold typedefType
  exact .bind (decl_keeps id) fun _ => typedefTypeAs_keeps id _

theorem templateParamType_keeps (id : DeclId) : (templateParamType id).Keeps bound := by
  unfold templateParamType
  exact .bind (decl_keeps id) fun _ => pushType_keeps _

theorem functionProto_keeps (result : TypeId) (params : List TypeId) :
    (functionProto result params).Keeps bound := by
  unfold functionProto
  refine .bind (.mapM (fun param => ?_) params) fun _ => .bind (type_keeps result) fun _ =>
    pushType_keeps _
  exact .bind (type_keeps param) fun _ => .pure _

theorem functionPointer_keeps (result : TypeId) (params : List TypeId) :
    (functionPointer result params).Keeps bound := by
  unfold functionPointer
  exact .bind (functionProto_keeps result params) fun _ => .bind (type_keeps _) fun _ =>
    pushType_keeps _

/-! ## Declarations -/

section

variable {parent : DeclId} (inside : parent < bound)

include inside

theorem inlineNamespace_keeps (name : String) : (inlineNamespace parent name).Keeps bound := by
  unfold inlineNamespace
  exact add_bind_keeps _ _ inside fun id _ => .bind (setFlag_keeps _ _ _) fun _ => .pure _

theorem linkageSpec_keeps : (linkageSpec parent).Keeps bound := by
  unfold linkageSpec
  exact add_bind_keeps _ _ inside fun id _ => .bind (setFlag_keeps _ _ _) fun _ => .pure _

theorem forwardClass_keeps (name : String) : (forwardClass parent name).Keeps bound := by
  unfold forwardClass
  exact add_bind_keeps _ _ inside fun id _ => .bind (setFlag_keeps _ _ _) fun _ => .pure _

theorem typeParam_keeps (name : String) : (typeParam parent name).Keeps bound := by
  unfold typeParam
  exact add_bind_keeps _ _ inside fun id _ => .bind (refreshDisplay_keeps _) fun _ => .pure _

theorem nonTypeParam_keeps (name : String) (type : TypeId) :
    (nonTypeParam parent name type).Keeps bound := by
  unfold nonTypeParam
  exact add_bind_keeps _ _ inside fun id _ => .bind (setType_keeps _ _) fun _ =>
    .bind (refreshDisplay_keeps _) fun _ => .pure _

theorem classTemplate_keeps (name : String) (params : List String) :
    (classTemplate parent name params).Keeps bound := by
  unfold classTemplate
  refine add_bind_keeps _ _ inside fun id _ => ?_
  refine .bind (.forM (fun param => ?_) params) fun _ => .bind (refreshDisplay_keeps _) fun _ =>
    .pure _
  exact .bind (typeParam_keeps (Nat.lt_succ_self id) param) fun _ => .pure _

theorem partialSpecialization_keeps (name args : String) :
    (partialSpecialization parent name args).Keeps bound := by
  unfold partialSpecialization
  exact add_bind_keeps _ _ inside fun id _ =>
    .bind (modifyDecl_keeps id fun _ => rfl) fun _ => .pure _

theorem typeRef_keeps (target : DeclId) : (typeRef parent target).Keeps bound := by
  unfold typeRef
  exact .bind .get fun _ => add_bind_keeps _ _ inside fun id _ =>
    .bind (setReferenced_keeps _ _) fun _ => .pure _

theorem templateRef_keeps (target : DeclId) : (templateRef parent target).Keeps bound := by
  unfold templateRef
  exact .bind (decl_keeps _) fun _ => add_bind_keeps _ _ inside fun id _ =>
    .bind (setReferenced_keeps _ _) fun _ => .pure _

theorem declRef_keeps (target : DeclId) : (declRef parent target).Keeps bound := by
  unfold declRef
  exact .bind (decl_keeps _) fun _ => add_bind_keeps _ _ inside fun id _ =>
    .bind (setReferenced_keeps _ _) fun _ => .pure _

theorem base_keeps (type : TypeId) : (base parent type).Keeps bound := by
  unfold base
  refine .bind (type_keeps _) fun _ => add_bind_keeps _ _ inside fun id _ => ?_
  refine .bind (setType_keeps _ _) fun _ => .bind .get fun builder => ?_
  split
  · exact .pure _
  · exact .bind (typeRef_keeps (Nat.lt_succ_self id) _) fun _ => .pure _

theorem templateBase_keeps (template : DeclId) (args : String) :
    (templateBase parent template args).Keeps bound := by
  unfold templateBase
  refine .bind (decl_keeps _) fun _ => .bind (pushType_keeps _) fun _ => ?_
  refine add_bind_keeps _ _ inside fun id _ => .bind (setType_keeps _ _) fun _ => ?_
  exact .bind (templateRef_keeps (Nat.lt_succ_self id) template) fun _ => .pure _

theorem enumeration_keeps (name : String) : (enumeration parent name).Keeps bound := by
  unfold enumeration
  exact add_bind_keeps _ _ inside fun id _ => .bind (builtin_keeps _) fun _ =>
    .bind (setUnderlying_keeps _ _) fun _ => .pure _

theorem scopedEnumeration_keeps (name : String) :
    (scopedEnumeration parent name).Keeps bound := by
  unfold scopedEnumeration
  exact .bind (enumeration_keeps inside name) fun _ => .bind (setFlag_keeps _ _ _) fun _ =>
    .pure _

theorem enumConstant_keeps (name : String) : (enumConstant parent name).Keeps bound := by
  unfold enumConstant
  exact add_bind_keeps _ _ inside fun id _ => .bind (enumType_keeps _) fun _ =>
    .bind (setType_keeps _ _) fun _ => .pure _

theorem function_keeps (kind : DeclKind) (name : String) (result : TypeId) :
    (function kind parent name result).Keeps bound := by
  unfold function
  exact add_bind_keeps _ _ inside fun id _ => .bind (setResult_keeps _ _) fun _ => .pure _

theorem methodWith_keeps (flag : DeclFlag) (name : String) (result : TypeId) :
    (methodWith flag parent name result).Keeps bound := by
  unfold methodWith
  exact .bind (function_keeps inside _ _ _) fun _ => .bind (setFlag_keeps _ _ _) fun _ => .pure _

theorem constructor_keeps : (constructor parent).Keeps bound := by
  unfold constructor
  exact .bind (decl_keeps _) fun _ => add_bind_keeps _ _ inside fun id _ =>
    .bind (builtin_keeps _) fun _ => .bind (setResult_keeps _ _) fun _ => .pure _

theorem destructor_keeps : (destructor parent).Keeps bound := by
  unfold destructor
  exact .bind (decl_keeps _) fun _ => add_keeps _ _ inside

theorem conversion_keeps (result : TypeId) : (conversion parent result).Keeps bound := by
  unfold conversion
  exact .bind (type_keeps _) fun _ => add_bind_keeps _ _ inside fun id _ =>
    .bind (setResult_keeps _ _) fun _ => .bind (setFlag_keeps _ _ _) fun _ => .pure _

theorem param_keeps (name : String) (type : TypeId) : (param parent name type).Keeps bound := by
  unfold param
  exact .bind (type_keeps _) fun _ => add_bind_keeps _ _ inside fun id _ =>
    .bind (modifyDecl_keeps id fun _ => rfl) fun _ => .pure _

theorem paramWithDefault_keeps (name : String) (type : TypeId) (text : String) :
    (paramWithDefault parent name type text).Keeps bound := by
  unfold paramWithDefault
  exact .bind (param_keeps inside _ _) fun _ =>
    .bind (modifyDecl_keeps _ fun _ => rfl) fun _ => .pure _

theorem field_keeps (name : String) (type : TypeId) : (field parent name type).Keeps bound := by
  unfold field
  exact add_bind_keeps _ _ inside fun id _ => .bind (setType_keeps _ _) fun _ => .pure _

theorem var_keeps (name : String) (type : TypeId) : (var parent name type).Keeps bound := by
  unfold var
  exact .bind (decl_keeps _) fun _ => add_bind_keeps _ _ inside fun id _ =>
    .bind (setType_keeps _ _) fun _ => .bind (setFlag_keeps _ _ _) fun _ => .pure _

theorem newTypedef_keeps (kind : DeclKind) (name : String) (underlying : TypeId) :
    (newTypedef kind parent name underlying).Keeps bound := by
  unfold newTypedef
  exact add_bind_keeps _ _ inside fun id _ => .bind (setUnderlying_keeps _ _) fun _ => .pure _

end

/-- An instantiation stands in the scope of its template. -/
theorem specialization_keeps (template : DeclId) (args : String) :
    (specialization template args).Keeps bound := by
  intro builder planted large
  unfold specialization
  refine ⟨planted.pushDecl rfl rfl fun scope within => ?_, ?_⟩
  · have above : scope < template := planted.parent_lt within
    exact above.trans (DeclTree.lt_size_of_semanticParent within)
  · exact (DeclTree.size_pushDecl ..).ge.trans' (Nat.le_succ _)

/-! ## Steps -/

/-- The declaration below which a step adds another. -/
def Step.parent? : Step → Option DeclId
  | .add parent _ _ | .inlineNamespace parent _ | .linkageSpec parent | .forwardClass parent _
  | .classTemplate parent _ _ | .typeParam parent _ | .nonTypeParam parent _ _
  | .partialSpecialization parent _ _ | .enumeration parent _ | .scopedEnumeration parent _
  | .enumConstant parent _ | .function _ parent _ _ | .constMethod parent _ _
  | .staticMethod parent _ _ | .constructor parent | .destructor parent | .conversion parent _
  | .param parent _ _ | .paramWithDefault parent _ _ _ | .field parent _ _ | .var parent _ _
  | .newTypedef _ parent _ _ | .base parent _ | .templateBase parent _ _ | .typeRef parent _
  | .templateRef parent _ | .declRef parent _ => some parent
  | .macroDefinition _ => some DeclTree.root
  | _ => none

/-- Whether what a step adds to is in the tree. -/
def Step.fits (builder : TreeBuilder) (step : Step) : Bool :=
  step.parent?.all fun parent => parent < builder.tree.size

/-- Whether each of some steps, carried out one after the other, finds what it adds to. -/
def allFit (builder : TreeBuilder) : List Step → Bool
  | [] => true
  | step :: rest => step.fits builder && allFit ((perform step).run builder).2 rest

theorem perform_keeps (step : Step)
    (inside : ∀ parent, step.parent? = some parent → parent < bound) :
    (perform step).Keeps bound := by
  cases step with
  | inFile | inUnit | systemHeader => exact .of_decls_eq fun _ => rfl
  | setExtent | setAccess =>
      exact .bind (modifyDecl_keeps _ fun _ => rfl) fun _ => .pure _
  | add => exact .map _ (add_keeps _ _ (inside _ rfl))
  | inlineNamespace => exact .map _ (inlineNamespace_keeps (inside _ rfl) _)
  | linkageSpec => exact .map _ (linkageSpec_keeps (inside _ rfl))
  | forwardClass => exact .map _ (forwardClass_keeps (inside _ rfl) _)
  | classTemplate => exact .map _ (classTemplate_keeps (inside _ rfl) _ _)
  | typeParam => exact .map _ (typeParam_keeps (inside _ rfl) _)
  | nonTypeParam => exact .map _ (nonTypeParam_keeps (inside _ rfl) _ _)
  | partialSpecialization => exact .map _ (partialSpecialization_keeps (inside _ rfl) _ _)
  | specialization => exact .map _ (specialization_keeps _ _)
  | enumeration => exact .map _ (enumeration_keeps (inside _ rfl) _)
  | scopedEnumeration => exact .map _ (scopedEnumeration_keeps (inside _ rfl) _)
  | enumConstant => exact .map _ (enumConstant_keeps (inside _ rfl) _)
  | macroDefinition => exact .map _ (add_keeps _ _ (inside _ rfl))
  | function => exact .map _ (function_keeps (inside _ rfl) _ _ _)
  | constMethod | staticMethod => exact .map _ (methodWith_keeps (inside _ rfl) _ _ _)
  | constructor => exact .map _ (constructor_keeps (inside _ rfl))
  | destructor => exact .map _ (destructor_keeps (inside _ rfl))
  | conversion => exact .map _ (conversion_keeps (inside _ rfl) _)
  | param => exact .map _ (param_keeps (inside _ rfl) _ _)
  | paramWithDefault => exact .map _ (paramWithDefault_keeps (inside _ rfl) _ _ _)
  | field => exact .map _ (field_keeps (inside _ rfl) _ _)
  | var => exact .map _ (var_keeps (inside _ rfl) _ _)
  | newTypedef => exact .map _ (newTypedef_keeps (inside _ rfl) _ _ _)
  | base => exact .map _ (base_keeps (inside _ rfl) _)
  | templateBase => exact .map _ (templateBase_keeps (inside _ rfl) _ _)
  | typeRef => exact .map _ (typeRef_keeps (inside _ rfl) _)
  | templateRef => exact .map _ (templateRef_keeps (inside _ rfl) _)
  | declRef => exact .map _ (declRef_keeps (inside _ rfl) _)
  | builtin => exact .map _ (builtin_keeps _)
  | derived => exact .map _ (derived_keeps _ _)
  | const => exact .map _ (const_keeps _)
  | constRef => exact .map _ (constRef_keeps _)
  | array => exact .map _ (array_keeps _ _)
  | record => exact .map _ (record_keeps _)
  | recordAs => exact .map _ (recordAs_keeps _ _)
  | named => exact .map _ (named_keeps _)
  | enumType => exact .map _ (enumType_keeps _)
  | namedEnum => exact .map _ (namedEnum_keeps _)
  | typedefType => exact .map _ (typedefType_keeps _)
  | typedefTypeAs => exact .map _ (typedefTypeAs_keeps _ _)
  | templateParamType => exact .map _ (templateParamType_keeps _)
  | leaf => exact .map _ (pushType_keeps _)
  | functionProto => exact .map _ (functionProto_keeps _ _)
  | functionPointer => exact .map _ (functionPointer_keeps _ _)

theorem performAll_isPlanted {builder : TreeBuilder} (planted : builder.tree.IsPlanted)
    {steps : List Step} (fit : allFit builder steps = true) :
    (builder.performAll steps).tree.IsPlanted := by
  induction steps generalizing builder with
  | nil => exact planted
  | cons step rest ih =>
      obtain ⟨fits, restFit⟩ := (Bool.and_eq_true _ _).mp fit
      have keeps : (perform step).Keeps builder.tree.size := by
        refine perform_keeps step fun parent adds => ?_
        rw [Step.fits, adds] at fits
        exact of_decide_eq_true fits
      exact ih (keeps builder planted (Nat.le_refl _)).1 restFit

theorem start_performAll_isPlanted (path : String) {steps : List Step}
    (fit : allFit (start path) steps = true) :
    ((start path).performAll steps).tree.IsPlanted :=
  performAll_isPlanted DeclTree.empty_isPlanted fit

/-- A tree that steps have built, each below what was there, is a forest. -/
theorem start_performAll_isForest (path : String) {steps : List Step}
    (fit : allFit (start path) steps = true) : ((start path).performAll steps).tree.IsForest :=
  (start_performAll_isPlanted path fit).toIsForest

theorem start_performAll_isGrounded (path : String) {steps : List Step}
    (fit : allFit (start path) steps = true) :
    ((start path).performAll steps).tree.IsGrounded :=
  (start_performAll_isForest path fit).toIsGrounded

end TreeBuilder

end Bindery
