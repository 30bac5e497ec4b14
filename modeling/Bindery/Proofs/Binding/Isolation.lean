import Bindery.Proofs.Binding.Overloads
import Bindery.Proofs.Binding.VisitsUpon
import Bindery.Proofs.Tree.Extension

/-!
# Included headers

What a unit includes takes no part in it: its bindings are the same whatever the headers declare, as
long as they declare no names for types.  There is one way to notice a declaration of a header.  One
that stands in the file of the unit itself, in a stretch that is marked as a system header, counts
among the overloads of its name.
-/

set_option autoImplicit false

namespace Bindery

/-! ## What includes bring in -/

/-- `wider` is `tree` with declarations from other files and from system headers, none of which is a
typedef, an alias or a class template. -/
structure DeclTree.Includes (tree wider : DeclTree) (path : String) : Prop
    extends IsWithin tree wider where
  foreign : ∀ {id : DeclId}, tree.size ≤ id →
    (wider.decl id).location.inSystemHeader = true ∨ wider.isInFile id path = false
  untyped : ∀ {id : DeclId}, tree.size ≤ id → (wider.decl id).kind ≠ .typedefDecl ∧
    (wider.decl id).kind ≠ .typeAlias ∧ (wider.decl id).kind ≠ .classTemplate

namespace DeclTree

theorem includes_iff {tree wider : DeclTree} {path : String} :
    tree.Includes wider path ↔
      tree.IsWithin wider ∧ ∀ id < wider.size, tree.size ≤ id →
        ((wider.decl id).location.inSystemHeader = true ∨ wider.isInFile id path = false) ∧
          (wider.decl id).kind ≠ .typedefDecl ∧ (wider.decl id).kind ≠ .typeAlias ∧
            (wider.decl id).kind ≠ .classTemplate := by
  refine ⟨fun includes => ⟨includes.toIsWithin, fun _ _ new => ⟨includes.foreign new,
    includes.untyped new⟩⟩, fun ⟨within, added⟩ => ⟨within, fun {id} new => ?_,
      fun {id} new => ?_⟩⟩
  · by_cases inside : id < wider.size
    · exact (added id inside new).1
    · rw [isInFile, decl_of_size_le (Nat.le_of_not_lt inside)]
      exact .inr rfl
  · by_cases inside : id < wider.size
    · exact (added id inside new).2
    · rw [decl_of_size_le (Nat.le_of_not_lt inside)]
      decide

instance (tree wider : DeclTree) (path : String) : Decidable (tree.Includes wider path) :=
  decidable_of_iff _ includes_iff.symm

section

variable {tree wider : DeclTree} (complete : tree.IsComplete)
include complete

theorem IsWithin.namesAlike (within : tree.IsWithin wider) :
    tree.NamesAlike wider tree.ownParts where
  toAgrees := within.agrees complete
  unnamed := fun inside _ _ => .inl (within.stays inside)
  referred := fun refers _ =>
    ⟨within.stays (complete.linked.refers refers), fun _ around _ =>
      within.stays (complete.isClosed.parent around)⟩
  uses := fun member => by
    have grounded := complete.grounded
    have apart := Nat.ne_zero_of_lt (grounded.lt_child member)
    rw [within.descendants_eq complete (grounded.child_lt member) apart]

theorem Includes.registries_eq {path : String} (includes : tree.Includes wider path) :
    TypeRegistries.ofTree wider = TypeRegistries.ofTree tree := by
  refine (includes.agrees complete).registries_eq includes.ids_eq
    (fun id member => List.mem_range.mp member) (List.forall_mem_map.mpr fun place _ => ?_)
  obtain ⟨noTypedef, noAlias, noTemplate⟩ := includes.untyped (Nat.le_add_right tree.size place)
  simp [TypeRegistries.namesType, TypeRegistries.isPlainTypedef, noTypedef, noAlias, noTemplate]

end

end DeclTree

namespace UnitContext

/-! ## Bases -/

section Bases

variable {context : UnitContext} {other : DeclTree} {region : DeclTree.Region}
  (agrees : context.tree.Agrees other region)
include agrees

theorem isInside_of_mem_signatureBases {function : DeclId} {base : BaseClass}
    (wanted : base ∈ context.signatureBases function) : base.IsInside region := by
  unfold signatureBases at wanted
  split at wanted
  · cases wanted
  · obtain ⟨type, -, found⟩ := List.mem_filterMap.mp wanted
    obtain ⟨⟨template, cppType, args⟩, unnamed, rfl⟩ := Option.map_eq_some_iff.mp found
    exact whole_of_unnamedInstantiation? agrees.closed unnamed

theorem isInside_of_mem_visitBases {id : DeclId} {base : BaseClass}
    (wanted : base ∈ context.visitBases id) : base.IsInside region := by
  have resolved {id : DeclId} {params args : List String}
      (member : base ∈ (context.speller.resolveBase? id params args).toList) :
      base.IsInside region :=
    DeclTree.Agrees.isInside_of_resolveBase? agrees (Option.mem_toList.mp member)
  have ofClass (wanted : base ∈ context.classBases id) : base.IsInside region := by
    rcases List.mem_append.mp wanted with own | inMember
    · exact resolved own
    · obtain ⟨child, -, wanted⟩ := List.mem_flatMap.mp inMember
      exact isInside_of_mem_signatureBases agrees wanted
  have ofTypedef (wanted : base ∈ context.typedefBases id) : base.IsInside region := by
    unfold typedefBases at wanted
    split at wanted
    · exact resolved wanted
    · cases wanted
  unfold visitBases at wanted
  split at wanted
  · exact ofClass wanted
  · exact ofClass wanted
  · exact isInside_of_mem_signatureBases agrees wanted
  · exact ofTypedef wanted
  · exact ofTypedef wanted
  · cases wanted

theorem isInside_of_reaches {unit : UnitState} {base reached : BaseClass}
    (reaches : context.Reaches unit base reached) (inside : base.IsInside region) :
    reached.IsInside region := by
  induction reaches with
  | self => exact inside
  | further _ derived _ ih => exact ih (DeclTree.Agrees.isInside_of_resolveBase? agrees derived)

/-- Nothing moves where all declarations stay in their scopes. -/
theorem spares_of_stays (stays : ∀ {id : DeclId}, region.decls id → context.tree.Stays other id)
    {unit : UnitState} {base : BaseClass} (inside : base.IsInside region) :
    context.Spares other unit base := fun _ _ _ reaches =>
  stays (agrees.closed.decl (isInside_of_reaches agrees reaches inside :))

end Bases

/-! ## Scopes and overloads -/

/-- The context of a unit whose includes bring in more declarations. -/
def including (context : UnitContext) (wider : DeclTree) : UnitContext :=
  context.upon wider (countedNames wider context.unitFile)

theorem ofUnit_wider {depth : Nat} {path relative : String} {options : BindOptions}
    {index : ProjectIndex} {tree wider : DeclTree} (complete : tree.IsComplete)
    (includes : tree.Includes wider path) :
    ofUnit depth ⟨path, wider⟩ options index relative =
      (ofUnit depth ⟨path, tree⟩ options index relative).including wider := by
  rw [ofUnit, ofUnit, Speller.ofTree, Speller.ofTree, includes.registries_eq complete]
  rfl

/-- Whether no declaration that is new overloads a function or method that takes part and that
nothing overloads so far. -/
def KeepsOverloads (context : UnitContext) (wider : DeclTree) : Prop :=
  ∀ function id, context.accepts function = true →
    ((context.tree.decl function).kind = .method ∨
      (context.tree.decl function).kind = .functionDecl) →
    context.overloaded function = false → context.tree.size ≤ id →
    isOverload wider context.unitFile id = true →
    wider.qualifiedName id ≠ context.tree.qualifiedName function

/-- The overloads are kept if nothing that is new counts. -/
theorem KeepsOverloads.of_uncounted {context : UnitContext} {wider : DeclTree}
    (uncounted : ∀ id < wider.size, context.tree.size ≤ id →
      isOverload wider context.unitFile id = false) : context.KeepsOverloads wider := by
  intro function id _ _ _ new counts
  have inside : id < wider.size := by
    refine DeclTree.lt_size_of_kind fun other => ?_
    simp [isOverload, other] at counts
  exact absurd (uncounted id inside new) (by simp [counts])

section Including

variable {context : UnitContext} {wider : DeclTree} (complete : context.tree.IsComplete)
  (includes : context.tree.Includes wider context.unitFile)
include complete includes

omit complete includes in
@[simp] theorem including_tree : (context.including wider).tree = wider :=
  rfl

omit complete includes in
@[simp] theorem including_unitFile : (context.including wider).unitFile = context.unitFile :=
  rfl

/-- The names that are counted in the wider tree: those that were counted before come first. -/
theorem countedNames_eq :
    ∃ added, countedNames wider context.unitFile =
        countedNames context.tree context.unitFile ++ added ∧
      ∀ name ∈ added, ∃ id, context.tree.size ≤ id ∧
        isOverload wider context.unitFile id = true ∧ wider.qualifiedName id = name := by
  have agrees := includes.agrees complete
  have known : ∀ id ∈ context.tree.ids, id < context.tree.size := fun _ => List.mem_range.mp
  have old : context.tree.ids.filter (isOverload wider context.unitFile) =
      context.tree.ids.filter (isOverload context.tree context.unitFile) :=
    List.filter_congr fun id member => isOverload_eq agrees (known id member) context.unitFile
  have named : (context.tree.ids.filter (isOverload context.tree context.unitFile)).map
        wider.qualifiedName = countedNames context.tree context.unitFile :=
    List.map_congr_left fun id member =>
      agrees.qualifiedName_eq (known id (List.mem_filter.mp member).1)
  rw [countedNames, includes.ids_eq, List.filter_append, List.map_append, old, named]
  refine ⟨_, rfl, fun name member => ?_⟩
  obtain ⟨id, listed, rfl⟩ := List.mem_map.mp member
  obtain ⟨new, counts⟩ := List.mem_filter.mp listed
  obtain ⟨place, -, rfl⟩ := List.mem_map.mp new
  exact ⟨_, Nat.le_add_right _ _, counts, rfl⟩

theorem including_overloaded
    (counts : context.CountsOverloads)
    (keeps : context.KeepsOverloads wider) {function : DeclId}
    (inside : function < context.tree.size) (accepted : context.accepts function = true)
    (kind : (context.tree.decl function).kind = .method ∨
      (context.tree.decl function).kind = .functionDecl) :
    (context.including wider).overloaded function = context.overloaded function := by
  obtain ⟨added, names, new⟩ := countedNames_eq complete includes
  have same : wider.qualifiedName function = context.tree.qualifiedName function :=
    (includes.agrees complete).qualifiedName_eq inside
  have count : (context.including wider).overloads.count (wider.qualifiedName function) =
      context.overloads.count (context.tree.qualifiedName function) +
        added.count (context.tree.qualifiedName function) := by
    rw [same, counts, ← List.count_append, ← names]
    rfl
  rw [overloaded, including_tree, count]
  cases already : context.overloaded function with
  | true => exact decide_eq_true (Nat.lt_add_right _ (of_decide_eq_true already))
  | false =>
      have absent : context.tree.qualifiedName function ∉ added := by
        intro member
        obtain ⟨id, outside, counts, called⟩ := new _ member
        exact keeps function id accepted kind already outside counts called
      rw [List.count_eq_zero_of_not_mem absent, Nat.add_zero]
      exact already

/-- The way up through the scopes ends in both trees, and it is the same. -/
theorem including_ensureScopeTo {depth more : Nat} {id : DeclId} (inside : id < context.tree.size)
    (here : id < depth) (there : id < more) :
    (context.including wider).ensureScopeTo more (some id) =
      context.ensureScopeTo depth (some id) := by
  induction id using Nat.strong_induction_on generalizing depth more with
  | h id ih =>
      obtain ⟨more, rfl⟩ := Nat.exists_eq_succ_of_ne_zero (Nat.ne_zero_of_lt there)
      obtain ⟨depth, rfl⟩ := Nat.exists_eq_succ_of_ne_zero (Nat.ne_zero_of_lt here)
      refine upon_ensureScopeTo_succ (includes.agrees complete) inside ?_
      have same : wider.semanticParent id = context.tree.semanticParent id := includes.stays inside
      rw [same]
      cases above : context.tree.semanticParent id with
      | none => cases more <;> cases depth <;> rfl
      | some parent =>
          have before := complete.grounded.parent_lt above
          exact ih parent before (complete.isClosed.parent above)
            (before.trans_le (Nat.le_of_lt_succ here)) (before.trans_le (Nat.le_of_lt_succ there))

theorem including_ensureScope {id : DeclId} (inside : id < context.tree.size) :
    (context.including wider).ensureScope (wider.semanticParent id) =
      context.ensureScope (context.tree.semanticParent id) := by
  have same : wider.semanticParent id = context.tree.semanticParent id := includes.stays inside
  rw [ensureScope, ensureScope, same]
  cases above : context.tree.semanticParent id with
  | none => rfl
  | some parent =>
      have within := complete.isClosed.parent above
      exact including_ensureScopeTo complete includes within (Nat.lt_succ_of_lt within)
        (Nat.lt_succ_of_lt (within.trans_le includes.size_le))

end Including

/-! ## Visits -/

section Visits

variable {context : UnitContext} {wider : DeclTree} (complete : context.tree.IsComplete)
  (includes : context.tree.Includes wider context.unitFile)
  (carries : context.CarriesOver wider (countedNames wider context.unitFile)
    context.tree.ownParts)
include complete includes carries

/-- A declaration of the tree gives the same, however deep the one way may go or the other. -/
theorem including_visitTo {depth more : Nat} {id : DeclId} (inside : id < context.tree.size)
    (apart : id ≠ DeclTree.root) (accepted : context.accepts id = true)
    (deep : context.tree.size ≤ depth + id) (alsoDeep : context.tree.size ≤ more + id)
    (parent : Parent) :
    ((context.including wider).visitTo more id parent).SameWhenIdle
      (context.visitTo depth id parent) := by
  have positive : ∀ {steps : Nat} {id : DeclId}, id < context.tree.size →
      context.tree.size ≤ steps + id → steps ≠ 0 := by
    rintro _ id inside deep rfl
    exact Nat.not_lt_of_le (Nat.zero_add id ▸ deep) inside
  induction depth generalizing more id parent with
  | zero => exact absurd rfl (positive inside deep)
  | succ depth ih =>
      obtain ⟨more, rfl⟩ := Nat.exists_eq_succ_of_ne_zero (positive inside alsoDeep)
      have deeper : ∀ {steps : Nat} {child : DeclId}, context.tree.size ≤ steps + 1 + id →
          id < child → context.tree.size ≤ steps + child := fun deep behind =>
        (deep.trans (Nat.succ_add_eq_add_succ _ id).le).trans (Nat.add_le_add_left behind _)
      have held : ∀ {ids : List DeclId}, (∀ child ∈ ids, child ∈ context.tree.children id) →
          ∀ parent, ((context.including wider).visitAll ((context.including wider).visitTo more)
              ids parent).SameWhenIdle
            (context.visitAll (context.visitTo depth) ids parent) := by
        intro ids children parent
        refine upon_visitAll carries (fun child member => ?_) fun child member accepted => ?_
        · exact complete.isClosed.child (children child member)
        · have behind := complete.grounded.lt_child (children child member)
          exact ih (complete.isClosed.child (children child member)) (Nat.ne_zero_of_lt behind)
            accepted (deeper deep behind) (deeper alsoDeep behind) parent
      refine upon_visitTo_succ carries inside accepted (fun parent => ?_) (fun _ parent => ?_)
        fun _ base wanted => ?_
      · rw [includes.children_eq inside apart]
        exact held (fun _ member => member) parent
      · exact held (fun _ => mem_children_of_mem_nestedDeclarations) parent
      · have agrees := includes.agrees complete
        exact spares_of_stays agrees includes.stays (isInside_of_mem_visitBases agrees wanted)

omit carries complete in
theorem including_accepts_eq_false {id : DeclId} (new : context.tree.size ≤ id) :
    (context.including wider).accepts id = false := by
  unfold accepts
  dsimp only
  rw [including_tree, including_unitFile]
  rcases includes.foreign new with header | elsewhere
  · rw [header]
    rfl
  · rw [elsewhere, Bool.and_false]
    rfl

/-- None of the new declarations in the unit takes part. -/
theorem including_visitUnit :
    (context.including wider).visitUnit.SameWhenIdle context.visitUnit := by
  have grounded := complete.grounded
  have filtered : (wider.children DeclTree.root).filter (context.including wider).accepts =
      (context.tree.children DeclTree.root).filter (context.including wider).accepts := by
    rw [← includes.holds, List.filter_filter]
    refine List.filter_congr fun child _ => ?_
    by_cases inside : child < context.tree.size
    · rw [decide_eq_true inside, Bool.and_true]
    · rw [including_accepts_eq_false includes (Nat.le_of_not_lt inside), Bool.false_and]
  have same : ∀ visit, (context.including wider).visitAll visit (wider.children DeclTree.root)
        .global =
      (context.including wider).visitAll visit (context.tree.children DeclTree.root) .global := by
    intro visit
    rw [visitAll, filtered, visitAll]
  unfold visitUnit
  rw [including_tree, same]
  refine upon_visitAll carries (fun _ => grounded.child_lt) fun child member accepted => ?_
  have apart := Nat.ne_zero_of_lt (grounded.lt_child member)
  exact including_visitTo complete includes carries (grounded.child_lt member) apart accepted
    (Nat.le_add_right _ _) (includes.size_le.trans (Nat.le_add_right _ _)) .global

end Visits

theorem carriesOver_of_includes {context : UnitContext} {wider : DeclTree}
    (complete : context.tree.IsComplete)
    (includes : context.tree.Includes wider context.unitFile)
    (counts : context.CountsOverloads)
    (keeps : context.KeepsOverloads wider) :
    context.CarriesOver wider (countedNames wider context.unitFile) context.tree.ownParts where
  alike := includes.namesAlike complete
  overloads := fun inside accepted kind =>
    including_overloaded complete includes counts keeps inside accepted kind
  scopes := fun inside _ => including_ensureScope complete includes inside

end UnitContext

/-- Included headers do not leak into a unit: it gives the same bindings, events and index when more
declarations are brought in, as long as none of them counts among the overloads of a function or
method that is alone. -/
theorem included_headers_do_not_leak {depth : Nat} {path relative : String} {options : BindOptions}
    {index : ProjectIndex} {tree wider : DeclTree} (complete : tree.IsComplete)
    (includes : tree.Includes wider path)
    (keeps : (UnitContext.ofUnit depth ⟨path, tree⟩ options index relative).KeepsOverloads wider) :
    generateUnit depth options index ⟨path, wider⟩ relative =
      generateUnit depth options index ⟨path, tree⟩ relative := by
  have own : (UnitContext.ofUnit depth ⟨path, tree⟩ options index relative).tree.IsComplete :=
    complete
  have carries := UnitContext.carriesOver_of_includes own includes rfl keeps
  have visited := UnitContext.including_visitUnit own includes carries ⟨UnitState.empty, []⟩ rfl
  unfold generateUnit
  dsimp only
  rw [UnitContext.ofUnit_wider complete includes, visited]
  rfl

/-- A namespace with a function and a class. -/
def shapeSteps : List TreeBuilder.Step :=
  [.builtin "int",
   .add 0 .namespaceDecl "geo",
   .function .functionDecl 1 "scale" 0,
   .param 2 "factor" 0,
   .add 1 .classDecl "Shape",
   .function .method 4 "area" 0]

/-- Another header that declares a class and another function of the same name in the same
namespace, and a system header. -/
def headerSteps : List TreeBuilder.Step :=
  [.inFile "/src/base.hpp",
   .builtin "double",
   .add 0 .namespaceDecl "geo",
   .function .functionDecl 6 "scale" 1,
   .param 7 "factor" 1,
   .add 6 .classDecl "Base",
   .inFile "/usr/include/math.h",
   .systemHeader true,
   .function .functionDecl 0 "cosine" 1]

def shapeUnit : SourceUnit :=
  .ofSteps shapeSteps

theorem shapeUnit_isComplete : shapeUnit.tree.IsComplete := by
  have grounded : shapeUnit.tree.IsGrounded :=
    TreeBuilder.start_performAll_isGrounded "/src/unit.hpp" (by decide +kernel)
  exact grounded.isComplete (by decide +kernel) (by decide +kernel) (by decide +kernel)
    (by decide +kernel)

/-- A function of the same name in another header goes unnoticed. -/
theorem namesake_in_header_is_not_noticed :
    (SourceUnit.ofSteps (shapeSteps ++ headerSteps)).tree.qualifiedName 7 = "geo::scale" ∧
      generateUnit 0 .plain .empty (.ofSteps (shapeSteps ++ headerSteps)) "unit.hpp" =
        generateUnit 0 .plain .empty shapeUnit "unit.hpp" := by
  refine ⟨by decide +kernel, included_headers_do_not_leak shapeUnit_isComplete
    (by decide +kernel) (.of_uncounted ?_)⟩
  decide +kernel

/-- The same namespace and another function of the same name, in the file of the unit but marked as a
system header. -/
def markedSteps : List TreeBuilder.Step :=
  [.systemHeader true,
   .builtin "double",
   .add 0 .namespaceDecl "geo",
   .function .functionDecl 6 "scale" 1,
   .param 7 "factor" 1]

/-- It counts among the overloads, so the function of the unit gets a signature. -/
theorem namesake_in_marked_stretch_is_noticed :
    shapeUnit.tree.IsComplete ∧
      shapeUnit.tree.Includes (SourceUnit.ofSteps (shapeSteps ++ markedSteps)).tree
        "/src/unit.hpp" ∧
      generateUnit 0 .plain .empty (.ofSteps (shapeSteps ++ markedSteps)) "unit.hpp" ≠
        generateUnit 0 .plain .empty shapeUnit "unit.hpp" :=
  ⟨shapeUnit_isComplete, by decide +kernel, by decide +kernel⟩

end Bindery
