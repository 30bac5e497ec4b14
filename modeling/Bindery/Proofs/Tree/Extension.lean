import Bindery.Proofs.Tree.Agreement

/-!
# More declarations

A tree that is complete in itself can be extended: more declarations come behind those that it has,
and the unit may hold some of them.  They change nothing that the tree tells, since nothing in it
leads to them.
-/

set_option autoImplicit false

namespace Bindery

namespace DeclTree

/-- A tree that nothing leads out of: the unit is its root, what it holds comes behind its scope, and
each link leads to a declaration or a type that it has. -/
structure IsComplete (tree : DeclTree) : Prop where
  rooted : (tree.decl root).kind = .unitRoot
  grounded : tree.IsGrounded
  linked : tree.IsLinked
  typed : ∀ {id : DeclId} {type : TypeId}, type ∈ (tree.decl id).types → type < tree.types.size
  made : ∀ {type inner : TypeId}, inner ∈ (tree.type type).links → inner < tree.types.size
  finite : tree.HasFiniteTypes

section Types

variable {tree : DeclTree}
  (earlier : ∀ type < tree.types.size, ∀ inner ∈ (tree.type type).links, inner < type)
include earlier

theorem lt_of_mem_links {type inner : TypeId} (leads : inner ∈ (tree.type type).links) :
    inner < type ∧ type < tree.types.size := by
  by_cases inside : type < tree.types.size
  · exact ⟨earlier type inside inner leads, inside⟩
  · rw [type_of_size_le (Nat.le_of_not_lt inside)] at leads
    cases leads

/-- Types come to an end if each leads to earlier ones only. -/
theorem hasFiniteTypes_of_earlier : tree.HasFiniteTypes := by
  have lower : ∀ inner outer, tree.IsPart inner outer → inner < outer ∧ outer < tree.types.size := by
    intro inner outer isPart
    have around {pointee : TypeId} (points : (tree.type outer).pointee = some pointee) :
        pointee < outer ∧ outer < tree.types.size :=
      lt_of_mem_links earlier (by simp [CppType.links, points])
    have behind {pointee : TypeId} {function : CppType}
        (points : (tree.type outer).pointee = some pointee)
        (found : Speller.functionBehind? tree pointee = some function)
        (leads : inner ∈ function.links) : inner < outer ∧ outer < tree.types.size := by
      obtain ⟨before, inside⟩ := around points
      refine ⟨?_, inside⟩
      rcases eq_type_of_functionBehind? found with rfl | ⟨core, told, rfl⟩
      · exact (lt_of_mem_links earlier leads).1.trans before
      · exact ((lt_of_mem_links earlier leads).1.trans (lt_of_mem_links earlier told).1).trans before
    cases isPart with
    | pointee points => exact around points
    | result points found gives => exact behind points found (by simp [CppType.links, gives])
    | param points found takes => exact behind points found (by simp [CppType.links, takes])
  refine ⟨fun type => min type tree.types.size, fun type => Nat.min_le_right _ _, ?_⟩
  intro inner outer isPart
  obtain ⟨before, inside⟩ := lower inner outer isPart
  exact (Nat.min_le_left _ _).trans_lt (lt_min before (before.trans inside))

end Types

/-- A tree is complete if each declaration and each type of it leads to what it has, types to earlier
ones. -/
theorem IsGrounded.isComplete {tree : DeclTree} (grounded : tree.IsGrounded)
    (rooted : (tree.decl root).kind = .unitRoot) (linked : tree.IsLinked)
    (typed : ∀ id < tree.size, ∀ type ∈ (tree.decl id).types, type < tree.types.size)
    (earlier : ∀ type < tree.types.size, ∀ inner ∈ (tree.type type).links, inner < type) :
    tree.IsComplete where
  rooted := rooted
  grounded := grounded
  linked := linked
  typed := fun {id type} told => by
    by_cases inside : id < tree.size
    · exact typed id inside type told
    · rw [decl_of_size_le (Nat.le_of_not_lt inside)] at told
      cases told
  made := fun leads =>
    (lt_of_mem_links earlier leads).1.trans (lt_of_mem_links earlier leads).2
  finite := hasFiniteTypes_of_earlier earlier

/-- `wider` is `tree` with more declarations and types behind those that it has.  Among the children
of the unit the new declarations may stand anywhere; all other declarations are what they were. -/
structure IsWithin (tree wider : DeclTree) : Prop where
  size_le : tree.size ≤ wider.size
  types_le : tree.types.size ≤ wider.types.size
  decl_eq : ∀ {id : DeclId}, id < tree.size → id ≠ root → wider.decl id = tree.decl id
  root_eq : { wider.decl root with children := tree.children root } = tree.decl root
  holds : (wider.children root).filter (· < tree.size) = tree.children root
  type_eq : ∀ {type : TypeId}, type < tree.types.size → wider.type type = tree.type type

theorem isWithin_iff {tree wider : DeclTree} :
    tree.IsWithin wider ↔
      tree.size ≤ wider.size ∧ tree.types.size ≤ wider.types.size ∧
        (∀ id < tree.size, id ≠ root → wider.decl id = tree.decl id) ∧
        { wider.decl root with children := tree.children root } = tree.decl root ∧
        (wider.children root).filter (· < tree.size) = tree.children root ∧
        ∀ type < tree.types.size, wider.type type = tree.type type :=
  ⟨fun within => ⟨within.size_le, within.types_le, fun _ => within.decl_eq, within.root_eq,
    within.holds, fun _ => within.type_eq⟩,
    fun ⟨size_le, types_le, decls, root_eq, holds, types⟩ =>
      ⟨size_le, types_le, decls _, root_eq, holds, types _⟩⟩

instance (tree wider : DeclTree) : Decidable (tree.IsWithin wider) :=
  decidable_of_iff _ isWithin_iff.symm

/-- All declarations and types of a tree.  The unit is not meant with all it holds. -/
def ownParts (tree : DeclTree) : Region where
  decls := (· < tree.size)
  wholes := fun id => id < tree.size ∧ id ≠ root
  types := (· < tree.types.size)

theorem IsComplete.isClosed {tree : DeclTree} (complete : tree.IsComplete) :
    tree.ownParts.IsClosed tree := by
  have grounded := complete.grounded
  have linked := complete.linked
  have apart : ∀ {id : DeclId}, ¬ (tree.decl id).IsNamespace → id ≠ root := by
    rintro _ solid rfl
    exact solid (.inr complete.rooted)
  exact
    { decl := And.left
      whole := fun inside solid => ⟨inside, apart solid⟩
      child := grounded.child_lt
      parent := fun above => (grounded.parent_lt above).trans (lt_size_of_semanticParent above)
      typed := complete.typed
      made := fun _ => complete.made
      declares := linked.declares
      refers := linked.refers
      mentions := fun kind refers => ⟨linked.refers refers, apart (linked.mentions kind refers)⟩
      defines := fun defines => (linked.defines defines).imp_right apart
      specializes := fun specializes => (linked.specializes specializes).imp_right apart }

theorem IsGrounded.lt_size_of_mem_ancestors {tree : DeclTree} (grounded : tree.IsGrounded)
    {id above : DeclId} (member : above ∈ tree.ancestors id) : above < tree.size := by
  have steps : ∀ depth id, above ∈ tree.ancestorsTo depth id → above < tree.size := by
    intro depth
    induction depth with
    | zero => exact fun id none => nomatch none
    | succ depth ih =>
        intro id found
        rw [ancestorsTo] at found
        split at found
        · cases found
        · rename_i parent around
          rcases List.mem_cons.mp found with rfl | further
          · exact (grounded.parent_lt around).trans (lt_size_of_semanticParent around)
          · exact ih parent further
  exact steps _ id member

namespace IsWithin

variable {tree wider : DeclTree} (within : tree.IsWithin wider)
include within

theorem unplaced_eq {id : DeclId} (inside : id < tree.size) :
    (wider.decl id).unplaced = (tree.decl id).unplaced := by
  by_cases atRoot : id = root
  · rw [atRoot, ← within.root_eq]
    rfl
  · rw [within.decl_eq inside atRoot]

theorem stays {id : DeclId} (inside : id < tree.size) : tree.Stays wider id := by
  by_cases atRoot : id = root
  · rw [Stays, semanticParent, semanticParent, atRoot, ← within.root_eq]
  · rw [Stays, semanticParent, semanticParent, within.decl_eq inside atRoot]

theorem children_eq {id : DeclId} (inside : id < tree.size) (apart : id ≠ root) :
    wider.children id = tree.children id := by
  rw [children, children, within.decl_eq inside apart]

/-- The declarations of the wider tree: those of the tree, and those that are new. -/
theorem ids_eq :
    wider.ids = tree.ids ++ (List.range (wider.size - tree.size)).map (tree.size + ·) := by
  rw [ids, ids, ← List.range_add, Nat.add_sub_of_le within.size_le]

variable (complete : tree.IsComplete)
include complete

/-- The way up from a declaration of the tree stays in it. -/
theorem ancestors_eq {id : DeclId} (inside : id < tree.size) :
    wider.ancestors id = tree.ancestors id := by
  have each : ∀ depth id, id < tree.size →
      wider.ancestorsTo depth id = tree.ancestorsTo depth id := by
    intro depth
    induction depth with
    | zero => exact fun _ _ => rfl
    | succ depth ih =>
        intro id inside
        have same : wider.semanticParent id = tree.semanticParent id := within.stays inside
        rw [ancestorsTo, ancestorsTo, same]
        cases above : tree.semanticParent id with
        | none => rfl
        | some parent => exact congrArg (parent :: ·) (ih parent (complete.isClosed.parent above))
  rw [ancestors, each _ _ inside]
  exact complete.grounded.isRanked.ancestorsTo_eq (inside.le.trans within.size_le) inside.le

theorem scopeComponents_eq {id : DeclId} (inside : id < tree.size) :
    wider.scopeComponents id = tree.scopeComponents id := by
  have same : ∀ above ∈ tree.ancestors id,
      (wider.decl above).unplaced = (tree.decl above).unplaced := fun above member =>
    within.unplaced_eq (complete.grounded.lt_size_of_mem_ancestors member)
  have shown : (tree.ancestors id).filter ((fun decl => !isTransparent decl) ∘ wider.decl) =
      (tree.ancestors id).filter ((fun decl => !isTransparent decl) ∘ tree.decl) :=
    List.filter_congr fun above member => (congrArg (! isTransparent ·) (same above member) :)
  simp only [scopeComponents, within.ancestors_eq complete inside, List.filter_map, List.map_map,
    List.map_reverse, shown]
  refine congrArg _ (List.map_congr_left fun above member => ?_)
  exact (congrArg Decl.spelling (same above (List.mem_filter.mp member).1) :)

/-- The way down from a declaration of the tree other than the unit stays in it. -/
theorem descendants_eq {id : DeclId} (inside : id < tree.size) (apart : id ≠ root) :
    wider.descendants id = tree.descendants id := by
  have each : ∀ depth id, id < tree.size → id ≠ root →
      wider.descendantsTo depth id = tree.descendantsTo depth id := by
    intro depth
    induction depth with
    | zero => exact fun _ _ _ => rfl
    | succ depth ih =>
        intro id inside apart
        rw [descendantsTo, descendantsTo, within.children_eq inside apart]
        refine List.flatMap_congr fun child member => congrArg (child :: ·) ?_
        have behind := complete.grounded.lt_child member
        exact ih child (complete.grounded.child_lt member) (Nat.ne_zero_of_lt behind)
  rw [descendants, each _ _ inside apart]
  exact complete.grounded.isRanked.ranksChildren.descendantsTo_eq
    (within.size_le.trans (Nat.le_add_right _ _)) (Nat.le_add_right _ _)

theorem agrees : tree.Agrees wider tree.ownParts where
  closed := complete.isClosed
  unplaced_eq := within.unplaced_eq
  children_eq := fun ⟨inside, apart⟩ => within.children_eq inside apart
  parents := fun inside => .inl (within.stays inside)
  scopes := within.scopeComponents_eq complete
  type_eq := within.type_eq
  steps := .inr ⟨within.types_le, complete.finite⟩

end IsWithin

end DeclTree

end Bindery
