import Bindery.Binding.Generator
import Bindery.Proofs.Binding.Enclosure
import Bindery.Proofs.Binding.VisitsUpon
import Bindery.Tree.Build

/-!
# Inline namespaces and generation

What an inline namespace holds belongs to the scope around it: a unit gives the same when some
declarations of a namespace are put in an inline namespace of their own.  Three things are named
after the scope that they stand in, and that may be the new one: an instantiation that no typedef
names, the constants of an enum without a name, and a constant of an unscoped enum in a default
value.
-/

set_option autoImplicit false

namespace Bindery

namespace UnitContext

/-! ## Contents of a scope -/

/-- Whether something stands in the unit's own file. -/
def isOwn (context : UnitContext) (location : SourceLocation) : Bool :=
  !location.inSystemHeader && location.file.any (Path.same context.unitFile)

theorem isOwn_of_accepts {context : UnitContext} {id : DeclId}
    (accepts : context.accepts id = true) :
    context.isOwn (context.tree.decl id).location = true := by
  unfold UnitContext.accepts at accepts
  simp only [Bool.and_eq_true, DeclTree.isInFile] at accepts
  rw [isOwn, accepts.1.1.1.1, accepts.1.1.1.2]
  rfl

theorem accepts_eq_isOwn {context : UnitContext} {id : DeclId}
    (inline : (context.tree.decl id).IsInline) :
    context.accepts id = context.isOwn (context.tree.decl id).location := by
  have complete : (DeclKind.namespaceDecl.isRecord || DeclKind.namespaceDecl == .enumDecl ||
      DeclKind.namespaceDecl == .classTemplate) = false := by
    decide
  simp only [accepts, inline.kind, inline.access, inline.kept, complete, isOwn, DeclTree.isInFile]
  simp

section Contents

variable {context : UnitContext} {wrapped : DeclTree} {names : List String} {scope : DeclId}
  {group : List DeclId} (encloses : context.tree.EnclosesQuietly wrapped scope group)
  {visit wrappedVisit : DeclId → Parent → Gen (List Fragment)} {parent : Parent}
include encloses

/-- The new namespace takes part if the scope around it does and something in it does. -/
theorem upon_accepts_new (visible : scope = DeclTree.root ∨ context.accepts scope = true)
    {id : DeclId} (member : id ∈ group) (accepts : context.accepts id = true) :
    (context.upon wrapped names).accepts context.tree.size = true := by
  have inline : ((context.upon wrapped names).tree.decl context.tree.size).IsInline :=
    encloses.isInline
  have sameFile : (context.upon wrapped names).isOwn = context.isOwn := rfl
  rw [accepts_eq_isOwn inline, upon_tree, sameFile]
  rcases encloses.located with ⟨notRoot, located⟩ | located
  · rw [located]
    exact isOwn_of_accepts (visible.resolve_left notRoot)
  · obtain ⟨file, header⟩ := located id member
    rw [isOwn, ← file, ← header]
    exact isOwn_of_accepts accepts

/-- The new namespace gives what it holds. -/
theorem upon_visitAll_new (depth : Nat)
    (visible : scope = DeclTree.root ∨ context.accepts scope = true)
    (same : ((context.upon wrapped names).visitAll ((context.upon wrapped names).visitTo depth) group
      parent).SameWhenIdle (context.visitAll visit group parent)) :
    ((context.upon wrapped names).visitAll ((context.upon wrapped names).visitTo (depth + 1))
      [context.tree.size] parent).SameWhenIdle (context.visitAll visit group parent) := by
  cases accepted : (context.upon wrapped names).accepts context.tree.size with
  | false =>
      -- A namespace outside the unit's file hides nothing: what it holds stands outside too.
      have rejected : group.filter context.accepts = [] := by
        refine List.filter_eq_nil_iff.mpr fun id member accepts => ?_
        exact Bool.false_ne_true (accepted.symm.trans (upon_accepts_new encloses visible member
          accepts))
      rw [visitAll_cons_of_not_accepts [] accepted, visitAll.eq_1 context, rejected]
      exact .of_eq rfl
  | true =>
      have visited : (context.upon wrapped names).visitTo (depth + 1) context.tree.size parent =
          (context.upon wrapped names).visitAll ((context.upon wrapped names).visitTo depth) group parent := by
        rw [visitTo, upon_tree, encloses.isInline.kind, visitNamespace]
        dsimp only
        rw [upon_tree, encloses.isInline.named, encloses.isInline.inline, encloses.group_eq,
          if_neg Bool.false_ne_true, if_pos rfl]
      rw [visitAll_cons [] accepted, visited]
      intro progress nothing
      have run := same progress nothing
      cases found : (context.visitAll visit group parent).run progress with
      | none => rw [StateT.run_bind, run, found]; rfl
      | some result =>
          obtain ⟨produced, after⟩ := result
          have idle : after.unit.pending = [] := visitAll_staysIdle group nothing found
          rw [Gen.run_bind_of_eq_some (run.trans found),
            Gen.run_bind_of_eq_some (Gen.run_takePending after), idle,
            Progress.release_of_pending_eq_nil idle]
          change some ([] ++ produced ++ [], after) = _
          rw [List.nil_append, List.append_nil]

/-- The two ways down from a declaration agree when nothing waits, however deep the one may go that
also enters the new namespace. -/
def SameBelow (context : UnitContext) (wrapped : DeclTree) (names : List String) (scope : DeclId)
    (depth : Nat) (id : DeclId) : Prop :=
  ∀ more parent, context.tree.size + 1 ≤ more + context.tree.rankIn scope id →
    ((context.upon wrapped names).visitTo more id parent).SameWhenIdle
      (context.visitTo depth id parent)

variable (carries : context.CarriesOver wrapped names context.tree.besides)
include carries

/-- What a scope holds gives the same, be it in the new namespace or not. -/
theorem upon_visitAll_children {depth more : Nat} {id : DeclId} (old : id ≠ context.tree.size)
    (visible : id = scope → scope = DeclTree.root ∨ context.accepts scope = true)
    (deep : context.tree.size ≤ more + context.tree.rankIn scope id)
    (same : ∀ child ∈ context.tree.children id, context.accepts child = true →
      context.SameBelow wrapped names scope depth child) :
    ((context.upon wrapped names).visitAll ((context.upon wrapped names).visitTo more)
      (wrapped.children id) parent).SameWhenIdle
        (context.visitAll (context.visitTo depth) (context.tree.children id) parent) := by
  have ranked := encloses.isRanked
  have below : ∀ {more : Nat} {ids : List DeclId},
      (∀ child ∈ ids, child ∈ context.tree.children id ∧
        context.tree.size + 1 ≤ more + context.tree.rankIn scope child) →
      ((context.upon wrapped names).visitAll ((context.upon wrapped names).visitTo more) ids
        parent).SameWhenIdle (context.visitAll (context.visitTo depth) ids parent) := by
    intro more ids inside
    refine upon_visitAll carries (fun child member => ?_) fun child member accepts => ?_
    · exact encloses.grounded.ne_size_of_child (inside child member).1
    · exact same child (inside child member).1 accepts more parent (inside child member).2
  by_cases here : id = scope
  · -- The group comes between two stretches that are the same; nothing waits where they meet.
    subst here
    obtain ⟨front, back, before, after⟩ := encloses.holds
    have held : ∀ child ∈ front ++ group ++ back, child ∈ context.tree.children id :=
      fun child member => before ▸ member
    have wrappedHeld : ∀ child ∈ front ++ context.tree.size :: back, child ∈ wrapped.children id :=
      fun child member => after ▸ member
    have deeper : ∀ child ∈ front ++ context.tree.size :: back,
        context.tree.size + 1 ≤ more + context.tree.rankIn id child := by
      intro child member
      have further := ranked.lt_child (wrappedHeld child member)
      omega
    simp only [List.forall_mem_append, List.forall_mem_cons] at held deeper
    rw [before, after, List.append_assoc, visitAll_append, visitAll_append front]
    refine (below fun child member => ⟨held.1.1 child member, deeper.1 child member⟩).bind
      (visitAll_staysIdle front) fun first => ?_
    refine Gen.SameWhenIdle.bind ?_ (visitAll_staysIdle _) fun _ => .of_eq rfl
    have rankNew : context.tree.rankIn id context.tree.size < context.tree.size + 1 :=
      encloses.size_eq ▸ ranked.lt_size (encloses.size_eq ▸ Nat.lt_succ_self _)
    obtain ⟨more, rfl⟩ : ∃ less, more = less + 1 := ⟨more - 1, by omega⟩
    have inside : ∀ child ∈ group, child ∈ context.tree.children id ∧
        context.tree.size + 1 ≤ more + context.tree.rankIn id child := by
      intro child member
      have further := ranked.lt_child (encloses.group_eq.symm ▸ member : child ∈ wrapped.children _)
      exact ⟨held.1.2 child member, by omega⟩
    rw [← List.singleton_append, visitAll_append, visitAll_append group]
    refine (upon_visitAll_new encloses more (visible rfl) (below inside)).bind
      (visitAll_staysIdle group) fun second => ?_
    refine Gen.SameWhenIdle.bind ?_ (visitAll_staysIdle back) fun _ => .of_eq rfl
    exact below fun child member => ⟨held.2 child member, deeper.2.2 child member⟩
  · rw [encloses.children_eq old here]
    refine below fun child member => ⟨member, ?_⟩
    have further := ranked.lt_child (encloses.children_eq old here ▸ member)
    omega

/-- The way down from a declaration that takes part: the way through the wrapped tree has one step
more to go where it enters the new namespace. -/
theorem upon_visitTo (spares : ∀ base ∈ context.wantedBases, context.Spares wrapped .empty base)
    {depth : Nat} {id : DeclId} (inside : id < context.tree.size)
    (accepts : context.accepts id = true) (deep : context.tree.size ≤ depth + id) :
    context.SameBelow wrapped names scope depth id := by
  -- The depth of the way through the tree as it was carries the induction; the other depth is free,
  -- since it falls by two where the new namespace is entered.
  induction depth generalizing id with
  | zero => exact absurd inside (Nat.not_lt_of_le (Nat.zero_add id ▸ deep))
  | succ depth ih =>
      intro more parent deeper
      have old := inside.ne
      have ranked : context.tree.rankIn scope id < context.tree.size + 1 :=
        encloses.size_eq ▸ encloses.isRanked.lt_size
          (encloses.size_eq ▸ inside.trans (Nat.lt_succ_self _))
      obtain ⟨more, rfl⟩ : ∃ less, more = less + 1 := ⟨more - 1, by omega⟩
      have below : ∀ child ∈ context.tree.children id, context.accepts child = true →
          context.SameBelow wrapped names scope depth child := by
        intro child member acceptsChild
        have behind : depth + (id + 1) ≤ depth + child :=
          Nat.add_le_add_left (encloses.grounded.lt_child member) depth
        have deepEnough := (deep.trans (Nat.succ_add_eq_add_succ depth id).le).trans behind
        exact ih (encloses.grounded.child_lt member) acceptsChild deepEnough
      refine upon_visitTo_succ carries old accepts (fun parent => ?_) (fun whole parent => ?_)
        fun kept base wanted => spares base (mem_wantedBases inside accepts kept wanted)
      · exact upon_visitAll_children encloses carries old (fun here => .inr (here ▸ accepts))
          (by omega) below
      · have unmoved := carries.alike.children_eq whole
        refine upon_visitAll carries (fun child member => ?_) fun child member acceptsChild => ?_
        · exact encloses.grounded.ne_size_of_child (mem_children_of_mem_nestedDeclarations member)
        · have held := mem_children_of_mem_nestedDeclarations member
          have further := encloses.isRanked.lt_child (unmoved ▸ held)
          exact below child held acceptsChild more parent (by omega)

theorem upon_visitUnit (spares : ∀ base ∈ context.wantedBases, context.Spares wrapped .empty base) :
    (context.upon wrapped names).visitUnit.SameWhenIdle context.visitUnit := by
  have rootInside : DeclTree.root < context.tree.size := (Nat.zero_le _).trans_lt encloses.scope_lt
  unfold visitUnit
  rw [upon_tree, encloses.size_eq]
  refine upon_visitAll_children encloses carries rootInside.ne (fun here => .inl here.symm)
    ((Nat.le_succ _).trans (Nat.le_add_right _ _)) fun child member accepts => ?_
  exact upon_visitTo encloses carries spares (encloses.grounded.child_lt member) accepts
    (Nat.le_add_right _ _)

end Contents

/-- The new namespace is known neither by type nor by name, and it overloads nothing. -/
theorem ofUnit_wrapped {depth : Nat} {path relative : String} {options : BindOptions}
    {index : ProjectIndex} {tree wrapped : DeclTree} {scope : DeclId} {group : List DeclId}
    (encloses : tree.Encloses wrapped scope group) :
    ofUnit depth ⟨path, wrapped⟩ options index relative =
      (ofUnit depth ⟨path, tree⟩ options index relative).upon wrapped
        (ofUnit depth ⟨path, tree⟩ options index relative).overloads := by
  have agrees := encloses.agrees
  have overloads : (wrapped.ids.filter (isOverload wrapped path)).map wrapped.qualifiedName =
      (tree.ids.filter (isOverload tree path)).map tree.qualifiedName := by
    have silent : isOverload wrapped path tree.size = false := by
      simp [isOverload, encloses.isInline.kind]
    have known : ∀ id ∈ tree.ids, id ≠ tree.size := fun id member => (List.mem_range.mp member).ne
    have same : tree.ids.filter (isOverload wrapped path) =
        tree.ids.filter (isOverload tree path) :=
      List.filter_congr fun id member => isOverload_eq agrees (known id member) path
    rw [encloses.ids_eq, List.filter_append, List.filter_cons_of_neg (Bool.eq_false_iff.mp silent),
      List.filter_nil, List.append_nil, same]
    refine List.map_congr_left fun id member => agrees.qualifiedName_eq ?_
    exact known id (List.mem_filter.mp member).1
  rw [ofUnit, ofUnit, overloads, Speller.ofTree, Speller.ofTree, encloses.registries_eq]
  rfl

end UnitContext

/-- Inline namespaces are transparent: a unit gives the same bindings, events and index when some
declarations of a namespace are put in an inline namespace, as long as no instantiation is
synthesized of a class template that moves, no enum without a name moves its constants, and no
default value names a constant of an enum that moves. -/
theorem inline_namespaces_are_transparent {depth : Nat} {path relative : String}
    {options : BindOptions} {index : ProjectIndex} {tree wrapped : DeclTree} {scope : DeclId}
    {group : List DeclId} (encloses : tree.EnclosesQuietly wrapped scope group)
    (spares : ∀ base ∈ (UnitContext.ofUnit depth ⟨path, tree⟩ options index relative).wantedBases,
      (UnitContext.ofUnit depth ⟨path, tree⟩ options index relative).Spares wrapped .empty base) :
    generateUnit depth options index ⟨path, wrapped⟩ relative =
      generateUnit depth options index ⟨path, tree⟩ relative := by
  have quiet : (UnitContext.ofUnit depth ⟨path, tree⟩ options index relative).tree.EnclosesQuietly
      wrapped scope group := encloses
  have carries := UnitContext.carriesOver_of_encloses quiet
  have visited := UnitContext.upon_visitUnit quiet carries spares ⟨UnitState.empty, []⟩ rfl
  unfold generateUnit
  dsimp only
  rw [UnitContext.ofUnit_wrapped encloses.toEncloses, visited]
  rfl

/-- A namespace that holds a class template, an enum without a name, an enum, a function, and a
class that derives from an instantiation of the template. -/
def matrixSteps : List TreeBuilder.Step :=
  [.add 0 .namespaceDecl "cv",
   .classTemplate 1 "Base" ["T"],
   .enumeration 1 "",
   .enumConstant 4 "LIMIT",
   .enumeration 1 "Mode",
   .enumConstant 6 "FAST",
   .function .functionDecl 1 "area" 0,
   .specialization 2 "int",
   .add 1 .classDecl "Mat",
   .named 9,
   .base 10 4]

def matrixTree : DeclTree :=
  ((TreeBuilder.start "/src/unit.hpp").performAll matrixSteps).tree

theorem matrixTree_isGrounded : matrixTree.IsGrounded :=
  TreeBuilder.start_performAll_isGrounded "/src/unit.hpp" (by decide +kernel)

/-- The last three of the declarations can be put in an inline namespace. -/
theorem enum_function_and_class_move_unseen :
    (matrixTree.enclose "v1" 1 2 3).children matrixTree.size = [6, 8, 10] ∧
      generateUnit 1 .plain .empty ⟨"/src/unit.hpp", matrixTree.enclose "v1" 1 2 3⟩ "unit.hpp" =
        generateUnit 1 .plain .empty ⟨"/src/unit.hpp", matrixTree⟩ "unit.hpp" := by
  refine ⟨by decide +kernel, inline_namespaces_are_transparent
    (DeclTree.enclosesQuietly_enclose matrixTree_isGrounded (by decide +kernel) (by decide +kernel)
      (by decide) (by decide) (by decide +kernel)) ?_⟩
  have wanted : (UnitContext.ofUnit 1 ⟨"/src/unit.hpp", matrixTree⟩ .plain .empty
      "unit.hpp").wantedBases = [.instantiation 2 "cv::Base<int>" ["int"]] := by
    decide +kernel
  rw [wanted]
  intro base member
  cases List.mem_singleton.mp member
  exact .of_underived (DeclTree.stays_enclose (by decide +kernel) (by decide +kernel)
    (by decide +kernel)) (by decide +kernel)

/-- The template, the enum without a name and the other enum show where they are put: in the
identifier of the instantiation, in the name of the constant, and in what a default value calls the
constant. -/
theorem template_and_enums_move_seen :
    (∀ skipped, matrixTree.Encloses (matrixTree.enclose "v1" 1 skipped 1) 1
      (((matrixTree.children 1).drop skipped).take 1)) ∧
    generateUnit 1 .plain .empty ⟨"/src/unit.hpp", matrixTree.enclose "v1" 1 0 1⟩ "unit.hpp" ≠
      generateUnit 1 .plain .empty ⟨"/src/unit.hpp", matrixTree⟩ "unit.hpp" ∧
    generateUnit 1 .plain .empty ⟨"/src/unit.hpp", matrixTree.enclose "v1" 1 1 1⟩ "unit.hpp" ≠
      generateUnit 1 .plain .empty ⟨"/src/unit.hpp", matrixTree⟩ "unit.hpp" ∧
    (matrixTree.enclose "v1" 1 2 1).referenceName 7 ≠ matrixTree.referenceName 7 := by
  refine ⟨fun skipped => ?_, by decide +kernel, by decide +kernel, by decide +kernel⟩
  exact DeclTree.encloses_enclose matrixTree_isGrounded (by decide +kernel) (by decide +kernel)
    (by decide) (by decide)

end Bindery
