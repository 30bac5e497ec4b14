import Bindery.Proofs.Tree.Agreement

/-!
# Inline namespaces around declarations

Declarations that stand side by side in a namespace can be put in an inline namespace of their own.
That declaration apart, the tree then tells of each declaration what it told before: the scopes that
show in its name, what it is, and, unless it is the namespace itself, what it holds.
-/

set_option autoImplicit false

namespace Bindery

namespace Decl

/-- An inline namespace with a name, as a parser makes it. -/
structure IsInline (decl : Decl) : Prop where
  kind : decl.kind = .namespaceDecl
  inline : decl.has .isInlineNamespace = true
  named : decl.anonymous = false
  access : decl.access = .isPublic
  kept : decl.has .isDeleted = false

end Decl

namespace DeclTree

/-- `wrapped` is `tree` with some consecutive children of a namespace put in an inline namespace,
which comes last among the declarations and stands in the place of the group.  Declarations that
belong to the namespace may belong to the new one now. -/
structure Encloses (tree wrapped : DeclTree) (scope : DeclId) (group : List DeclId) : Prop where
  grounded : tree.IsGrounded
  linked : tree.IsLinked
  isNamespace : (tree.decl scope).IsNamespace
  size_eq : wrapped.size = tree.size + 1
  types_eq : wrapped.types = tree.types
  unplaced_eq : ∀ {id : DeclId}, id ≠ tree.size →
    (wrapped.decl id).unplaced = (tree.decl id).unplaced
  children_eq : ∀ {id : DeclId}, id ≠ tree.size → id ≠ scope →
    wrapped.children id = tree.children id
  holds : ∃ front back, tree.children scope = front ++ group ++ back ∧
    wrapped.children scope = front ++ tree.size :: back
  group_eq : wrapped.children tree.size = group
  isInline : (wrapped.decl tree.size).IsInline
  located : scope ≠ root ∧ (wrapped.decl tree.size).location = (tree.decl scope).location ∨
    ∀ id ∈ group, (tree.decl id).location.file = (wrapped.decl tree.size).location.file ∧
      (tree.decl id).location.inSystemHeader = (wrapped.decl tree.size).location.inSystemHeader
  parent_eq : wrapped.semanticParent tree.size = some scope
  parents : ∀ {id : DeclId}, id ≠ tree.size →
    wrapped.semanticParent id = tree.semanticParent id ∨
      tree.semanticParent id = some scope ∧ wrapped.semanticParent id = some tree.size

/-- All declarations but one that comes behind them. -/
def besides (tree : DeclTree) : Region where
  decls := (· ≠ tree.size)
  wholes := fun id => id ≠ tree.size ∧ ¬ (tree.decl id).IsNamespace
  types := fun _ => True

/-- The names of the scopes around a declaration that show, the innermost first. -/
def visibleScopes (tree : DeclTree) (id : DeclId) : List String :=
  (((tree.ancestors id).map tree.decl).filter fun decl => !isTransparent decl).map (·.spelling)

theorem scopeComponents_eq_reverse (tree : DeclTree) (id : DeclId) :
    tree.scopeComponents id = (tree.visibleScopes id).reverse :=
  List.map_reverse

/-- What a scope adds to the names of what it holds. -/
def shownName (decl : Decl) : List String :=
  if isTransparent decl then [] else [decl.spelling]

theorem IsRanked.visibleScopes_eq {tree : DeclTree} {rank : DeclId → Nat}
    (ranked : tree.IsRanked rank) (id : DeclId) :
    tree.visibleScopes id =
      match tree.semanticParent id with
      | none => []
      | some parent => shownName (tree.decl parent) ++ tree.visibleScopes parent := by
  rw [visibleScopes, ranked.ancestors_eq]
  cases tree.semanticParent id with
  | none => rfl
  | some parent =>
      unfold shownName
      dsimp only
      rw [List.map_cons, List.filter_cons]
      cases isTransparent (tree.decl parent) <;> rfl

theorem IsGrounded.ne_size_of_child {tree : DeclTree} (grounded : tree.IsGrounded)
    {id child : DeclId} (member : child ∈ tree.children id) : child ≠ tree.size :=
  (grounded.child_lt member).ne

theorem IsGrounded.ne_size_of_parent {tree : DeclTree} (grounded : tree.IsGrounded)
    {id parent : DeclId} (inside : tree.semanticParent id = some parent) : parent ≠ tree.size :=
  ((grounded.parent_lt inside).trans (lt_size_of_semanticParent inside)).ne

/-- The places of declarations when a new one, the last of all, comes right behind `scope`. -/
def rankIn (tree : DeclTree) (scope id : DeclId) : Nat :=
  if id = tree.size then scope + 1 else if id ≤ scope then id else id + 1

namespace Encloses

variable {tree wrapped : DeclTree} {scope : DeclId} {group : List DeclId}
  (encloses : tree.Encloses wrapped scope group)
include encloses

theorem scope_lt : scope < tree.size := by
  refine lt_size_of_kind fun other => ?_
  rcases encloses.isNamespace with kind | kind <;> rw [kind] at other <;> cases other

/-! ## Order -/

theorem isRanked : wrapped.IsRanked (rankIn tree scope) := by
  have grounded := encloses.grounded
  have scopeInside := encloses.scope_lt
  obtain ⟨front, back, before, after⟩ := encloses.holds
  have inGroup : ∀ child ∈ group, scope < child ∧ child < tree.size := by
    intro child member
    have held : child ∈ tree.children scope := by
      rw [before]
      exact List.mem_append_left _ (List.mem_append_right _ member)
    exact ⟨grounded.lt_child held, grounded.child_lt held⟩
  have links : ∀ {id child : DeclId}, child ∈ wrapped.children id →
      rankIn tree scope id < rankIn tree scope child ∧ child < tree.size + 1 := by
    intro id child member
    by_cases new : id = tree.size
    · subst new
      rw [encloses.group_eq] at member
      obtain ⟨behind, inside⟩ := inGroup child member
      unfold rankIn
      grind
    · have known : child ∈ tree.children id ∨ id = scope ∧ child = tree.size := by
        by_cases here : id = scope
        · subst here
          rw [after, List.mem_append, List.mem_cons] at member
          rw [before, List.mem_append, List.mem_append]
          grind
        · exact .inl (encloses.children_eq new here ▸ member)
      rcases known with held | ⟨rfl, rfl⟩
      · have behind := grounded.lt_child held
        have inside := grounded.child_lt held
        unfold rankIn
        grind
      · unfold rankIn
        grind
  refine ⟨fun {id parent} above => ?_, fun member => (links member).1,
    fun member => encloses.size_eq ▸ (links member).2, fun {id} inside => ?_⟩
  · by_cases new : id = tree.size
    · subst new
      cases Option.some.inj (encloses.parent_eq.symm.trans above)
      unfold rankIn
      grind
    · rcases encloses.parents new with same | ⟨moved, there⟩
      · rw [same] at above
        have before := grounded.parent_lt above
        have inside := lt_size_of_semanticParent above
        unfold rankIn
        grind
      · cases Option.some.inj (there.symm.trans above)
        have before := grounded.parent_lt moved
        unfold rankIn
        grind
  · rw [encloses.size_eq] at inside ⊢
    unfold rankIn
    grind

/-! ## Names -/

theorem shownName_eq {id : DeclId} (old : id ≠ tree.size) :
    shownName (wrapped.decl id) = shownName (tree.decl id) :=
  (congrArg shownName (encloses.unplaced_eq old) :)

theorem shownName_new : shownName (wrapped.decl tree.size) = [] := by
  have inline := encloses.isInline
  simp [shownName, isTransparent, inline.kind, inline.inline]

/-- The new namespace does not show. -/
theorem visibleScopes_eq {id : DeclId} (old : id ≠ tree.size) :
    wrapped.visibleScopes id = tree.visibleScopes id := by
  induction id using Nat.strong_induction_on with
  | h id ih =>
      have ranked := encloses.isRanked
      rw [ranked.visibleScopes_eq, encloses.grounded.isRanked.visibleScopes_eq]
      have above : ∀ {parent}, tree.semanticParent id = some parent →
          parent < id ∧ parent ≠ tree.size := fun inside =>
        ⟨encloses.grounded.parent_lt inside, encloses.grounded.ne_size_of_parent inside⟩
      rcases encloses.parents old with same | ⟨moved, there⟩
      · rw [same]
        cases inside : tree.semanticParent id with
        | none => rfl
        | some parent =>
            obtain ⟨before, oldParent⟩ := above inside
            dsimp only
            rw [encloses.shownName_eq oldParent, ih parent before oldParent]
      · obtain ⟨before, oldScope⟩ := above moved
        rw [moved, there]
        dsimp only
        rw [encloses.shownName_new, ranked.visibleScopes_eq, encloses.parent_eq]
        dsimp only
        rw [List.nil_append, encloses.shownName_eq oldScope, ih scope before oldScope]

/-! ## Agreement -/

theorem isClosed : tree.besides.IsClosed tree := by
  have grounded := encloses.grounded
  have linked := encloses.linked
  exact
    { decl := And.left
      whole := And.intro
      child := grounded.ne_size_of_child
      parent := grounded.ne_size_of_parent
      typed := fun _ => trivial
      made := fun _ _ => trivial
      declares := fun declared => (linked.declares declared).ne
      refers := fun refers => (linked.refers refers).ne
      mentions := fun kind refers => ⟨(linked.refers refers).ne, linked.mentions kind refers⟩
      defines := fun defines => ⟨(linked.defines defines).1.ne, (linked.defines defines).2⟩
      specializes := fun specializes =>
        ⟨(linked.specializes specializes).1.ne, (linked.specializes specializes).2⟩ }

theorem not_wholes_scope : ¬ tree.besides.wholes scope :=
  fun whole => whole.2 encloses.isNamespace

/-- Besides the new namespace the trees agree. -/
theorem agrees : tree.Agrees wrapped tree.besides where
  closed := encloses.isClosed
  unplaced_eq := encloses.unplaced_eq
  children_eq := fun ⟨old, solid⟩ =>
    encloses.children_eq old fun same => solid (same ▸ encloses.isNamespace)
  parents := fun old => (encloses.parents old).imp id fun ⟨moved, there⟩ =>
    ⟨scope, tree.size, moved, there, encloses.isNamespace, .inl encloses.isInline.kind,
      encloses.not_wholes_scope, fun new => new.1 rfl⟩
  scopes := fun old => by
    rw [scopeComponents_eq_reverse, scopeComponents_eq_reverse, encloses.visibleScopes_eq old]
  type_eq := fun _ => by rw [DeclTree.type, DeclTree.type, encloses.types_eq]
  steps := .inl (by rw [encloses.types_eq])

/-! ## Contents -/

/-- What can be told of the declarations below another, if nothing is told of the new one. -/
theorem filterMap_descendants_eq {α : Type} {told wrappedTold : DeclId → Option α}
    (same : ∀ id ≠ tree.size, wrappedTold id = told id) (silent : wrappedTold tree.size = none)
    {id : DeclId} (old : id ≠ tree.size) :
    (wrapped.descendants id).filterMap wrappedTold = (tree.descendants id).filterMap told := by
  induction remaining : tree.size - id using Nat.strong_induction_on generalizing id with
  | h remaining ih =>
      subst remaining
      have ranks := encloses.isRanked.ranksChildren
      have grounded := encloses.grounded
      have below : ∀ children : List DeclId, (∀ child ∈ children, child ∈ tree.children id) →
          (children.flatMap fun child => child :: wrapped.descendants child).filterMap wrappedTold =
            (children.flatMap fun child => child :: tree.descendants child).filterMap told := by
        intro children held
        rw [List.filterMap_flatMap, List.filterMap_flatMap]
        refine List.flatMap_congr fun child member => ?_
        have oldChild := grounded.ne_size_of_child (held child member)
        have behind := grounded.lt_child (held child member)
        have inside := grounded.child_lt (held child member)
        rw [List.filterMap_cons, List.filterMap_cons, same child oldChild,
          ih (tree.size - child) (Nat.sub_lt_sub_left (behind.trans inside) behind) oldChild rfl]
      rw [ranks.descendants_eq, grounded.isRanked.ranksChildren.descendants_eq]
      by_cases here : id = scope
      · subst here
        obtain ⟨front, back, before, after⟩ := encloses.holds
        have parts : ∀ child ∈ front ++ group ++ back, child ∈ tree.children id :=
          fun child member => before ▸ member
        simp only [List.forall_mem_append] at parts
        rw [before, after]
        simp only [List.flatMap_append, List.flatMap_cons, List.filterMap_append,
          List.filterMap_cons, silent, below front parts.1.1, below back parts.2,
          ranks.descendants_eq tree.size, encloses.group_eq, below group parts.1.2]
        rw [List.append_assoc]
      · rw [encloses.children_eq old here]
        exact below _ fun child member => member

end Encloses

/-- An enclosure that moves no constant which is named by the scope of its enum: an enum without a
name that moves has no constants, and no constant of an unscoped enum that moves is referred to. -/
structure EnclosesQuietly (tree wrapped : DeclTree) (scope : DeclId) (group : List DeclId) : Prop
    extends Encloses tree wrapped scope group where
  unnamed : ∀ {id : DeclId}, (tree.decl id).kind = .enumDecl → (tree.decl id).anonymous = true →
    tree.Stays wrapped id ∨ tree.childrenOfKind (· == .enumConstant) id = []
  referred : ∀ {id constant : DeclId}, (tree.decl id).referenced = some constant →
    (tree.decl constant).kind = .enumConstant → tree.Stays wrapped constant ∧
      ∀ enum, tree.semanticParent constant = some enum →
        (tree.decl enum).has .isScopedEnum = false → tree.Stays wrapped enum

/-! ## Putting declarations in an inline namespace -/

/-- Whether a declaration goes along with a group of the declarations in a namespace: as one of them
or as an instantiation of a class template among them. -/
def goesAlong (tree : DeclTree) (scope : DeclId) (group : List DeclId) (id : DeclId) : Bool :=
  tree.semanticParent id == some scope &&
    (group.contains id || (tree.decl id).specializedTemplate.any group.contains)

/-- The inline namespace around a group of the declarations in a namespace. -/
def inlineAround (tree : DeclTree) (scope : DeclId) (name : String) (group : List DeclId) : Decl :=
  { Decl.make .namespaceDecl name with
    semanticParent := some scope
    lexicalParent := some scope
    children := group
    flags := [.isInlineNamespace, .isDefinition]
    location := (tree.decl scope).location }

/-- A declaration once a group of the declarations in a namespace, which then holds `contents`, has
moved to the declaration that comes last. -/
def afterMove (tree : DeclTree) (scope : DeclId) (group contents : List DeclId) (id : DeclId) :
    Decl :=
  let decl := tree.decl id
  let decl := if id = scope then { decl with children := contents } else decl
  if tree.goesAlong scope group id then
    { decl with semanticParent := some tree.size, lexicalParent := some tree.size }
  else decl

/-- The tree in which some children of a namespace, `count` of them behind the first `skipped`, are
in an inline namespace of their own. -/
def enclose (tree : DeclTree) (name : String) (scope : DeclId) (skipped count : Nat) : DeclTree :=
  let children := tree.children scope
  let group := (children.drop skipped).take count
  let contents := children.take skipped ++ tree.size :: children.drop (skipped + count)
  { tree with
    decls := (tree.ids.map (tree.afterMove scope group contents)).toArray.push
      (tree.inlineAround scope name group) }

section Enclose

variable (tree : DeclTree) (name : String) (scope : DeclId) (skipped count : Nat)

theorem size_enclose : (tree.enclose name scope skipped count).size = tree.size + 1 := by
  simp [enclose, size, ids]

theorem decl_enclose_new :
    (tree.enclose name scope skipped count).decl tree.size =
      tree.inlineAround scope name (((tree.children scope).drop skipped).take count) := by
  simp [enclose, decl, size, ids, Array.getD_eq_getD_getElem?]

variable {tree name scope skipped count}

theorem decl_enclose (inside : scope < tree.size) {id : DeclId} (old : id ≠ tree.size) :
    (tree.enclose name scope skipped count).decl id =
      tree.afterMove scope (((tree.children scope).drop skipped).take count)
        ((tree.children scope).take skipped ++
          tree.size :: (tree.children scope).drop (skipped + count)) id := by
  by_cases known : id < tree.size
  · have here : id < tree.decls.size := known
    simp [enclose, decl, size, ids, Array.getD_eq_getD_getElem?, List.getElem?_append_left, here]
  · have outside := Nat.le_of_not_lt known
    have beyond : (tree.enclose name scope skipped count).size ≤ id := by
      rw [size_enclose]
      exact Nat.lt_of_le_of_ne outside (Ne.symm old)
    have elsewhere : id ≠ scope := fun same => known (same ▸ inside)
    have parentless : tree.semanticParent id = none := by
      rw [semanticParent, decl_of_size_le outside]
      rfl
    rw [decl_of_size_le beyond, afterMove, goesAlong, parentless, decl_of_size_le outside,
      if_neg elsewhere]
    rfl

theorem unplaced_afterMove (group contents : List DeclId) (id : DeclId) :
    (tree.afterMove scope group contents id).unplaced = (tree.decl id).unplaced := by
  unfold afterMove
  dsimp only
  split_ifs <;> rfl

theorem children_afterMove (group contents : List DeclId) (id : DeclId) :
    (tree.afterMove scope group contents id).children =
      if id = scope then contents else tree.children id := by
  unfold afterMove
  dsimp only
  split_ifs <;> rfl

theorem semanticParent_afterMove (group contents : List DeclId) (id : DeclId) :
    (tree.afterMove scope group contents id).semanticParent =
      if tree.goesAlong scope group id then some tree.size else tree.semanticParent id := by
  unfold afterMove
  dsimp only
  split_ifs <;> rfl

/-- Any children of a namespace that stand side by side can be put in an inline namespace. -/
theorem encloses_enclose (grounded : tree.IsGrounded) (linked : tree.IsLinked)
    (isNamespace : (tree.decl scope).kind = .namespaceDecl) (apart : scope ≠ root)
    (named : name.isEmpty = false) :
    tree.Encloses (tree.enclose name scope skipped count) scope
      (((tree.children scope).drop skipped).take count) := by
  have inside : scope < tree.size := lt_size_of_kind (by rw [isNamespace]; decide)
  have new := tree.decl_enclose_new name scope skipped count
  constructor
  case grounded => exact grounded
  case linked => exact linked
  case isNamespace => exact .inl isNamespace
  case size_eq => exact tree.size_enclose name scope skipped count
  case types_eq => rfl
  case unplaced_eq =>
    intro id old
    rw [decl_enclose inside old, unplaced_afterMove]
  case children_eq =>
    intro id old elsewhere
    rw [children, decl_enclose inside old, children_afterMove, if_neg elsewhere]
  case holds =>
    refine ⟨(tree.children scope).take skipped, (tree.children scope).drop (skipped + count), ?_,
      ?_⟩
    · rw [List.append_assoc, ← List.drop_drop, List.take_append_drop, List.take_append_drop]
    · rw [children, decl_enclose inside inside.ne, children_afterMove, if_pos rfl]
  case group_eq => rw [children, new]; rfl
  case isInline =>
    rw [new]
    refine ⟨rfl, rfl, ?_, rfl, rfl⟩
    change (false || name.isEmpty) = false
    rw [named]
    rfl
  case located => exact .inl ⟨apart, by rw [new]; rfl⟩
  case parent_eq => rw [semanticParent, new]; rfl
  case parents =>
    intro id old
    rw [semanticParent, decl_enclose inside old, semanticParent_afterMove]
    split
    · rename_i along
      exact .inr ⟨eq_of_beq (Bool.and_eq_true_iff.mp along).1, rfl⟩
    · exact .inl rfl

theorem stays_enclose (inside : scope < tree.size) {id : DeclId} (old : id ≠ tree.size)
    (remains : tree.goesAlong scope (((tree.children scope).drop skipped).take count) id = false) :
    tree.Stays (tree.enclose name scope skipped count) id := by
  rw [Stays, semanticParent, decl_enclose inside old, semanticParent_afterMove, remains,
    if_neg Bool.false_ne_true]

/-- Whether no constant goes along with a group that is named by the scope of its enum. -/
def MovesQuietly (tree : DeclTree) (scope : DeclId) (group : List DeclId) : Prop :=
  ∀ id < tree.size,
    ((tree.decl id).kind = .enumDecl → (tree.decl id).anonymous = true →
      tree.goesAlong scope group id = false ∨ tree.childrenOfKind (· == .enumConstant) id = []) ∧
    ∀ constant ∈ (tree.decl id).referenced, (tree.decl constant).kind = .enumConstant →
      tree.goesAlong scope group constant = false ∧
        ∀ enum ∈ tree.semanticParent constant, (tree.decl enum).has .isScopedEnum = false →
          tree.goesAlong scope group enum = false

instance (tree : DeclTree) (scope : DeclId) (group : List DeclId) :
    Decidable (tree.MovesQuietly scope group) :=
  inferInstanceAs (Decidable (∀ id < tree.size, _))

theorem enclosesQuietly_enclose (grounded : tree.IsGrounded) (linked : tree.IsLinked)
    (isNamespace : (tree.decl scope).kind = .namespaceDecl) (apart : scope ≠ root)
    (named : name.isEmpty = false)
    (quiet : tree.MovesQuietly scope (((tree.children scope).drop skipped).take count)) :
    tree.EnclosesQuietly (tree.enclose name scope skipped count) scope
      (((tree.children scope).drop skipped).take count) := by
  have encloses := @encloses_enclose tree name scope skipped count grounded linked isNamespace
    apart named
  refine ⟨encloses, fun {id} kind unnamed => ?_, fun {id constant} refers isConstant => ?_⟩
  · have known : id < tree.size := lt_size_of_kind (by rw [kind]; decide)
    exact ((quiet id known).1 kind unnamed).imp_left (stays_enclose encloses.scope_lt known.ne)
  · have known : id < tree.size := by
      by_contra outside
      rw [decl_of_size_le (Nat.le_of_not_lt outside)] at refers
      cases refers
    obtain ⟨remains, enumRemains⟩ := (quiet id known).2 constant refers isConstant
    refine ⟨stays_enclose encloses.scope_lt (linked.refers refers).ne remains, ?_⟩
    intro enum around unscoped
    exact stays_enclose encloses.scope_lt (grounded.ne_size_of_parent around)
      (enumRemains enum around unscoped)

end Enclose

end DeclTree

end Bindery
