import Bindery.Proofs.Tree.MadeTypes

/-!
# Canonical forms keep the shape

The canonical form of a type is the type with each name in it replaced by what the name stands for:
the same pointers, references and arrays in the same order, constant where they were constant.
What it does not keep are the sizes of arrays whose elements are written by name.
-/

set_option autoImplicit false

namespace Bindery

namespace DeclTree

/-- Whether `core` is a type, made constant if `const` says so, with each name in it replaced by
what the name stands for.  Whatever is around another type stays around what that becomes, and only
its spelling is made anew; an array keeps its size if `sized` says that sizes count. -/
inductive Resolves (tree : DeclTree) (sized : Bool) : Bool → TypeId → TypeId → Prop
  | plain {const : Bool} {type core : TypeId}
      (unnamed : tree.standsFor? (tree.type type) = none)
      (single : (tree.type type).around? = none)
      (same : tree.type core = (tree.type type).constIf const) : Resolves tree sized const type core
  | around {const : Bool} {type core inner innerCore : TypeId} {spelling : String}
      {size : Option Nat} (around : (tree.type type).around? = some inner)
      (same : tree.type core =
        { (tree.type type).constIf const with
          spelling, pointee := some innerCore, arraySize := size, canonical := none })
      (keepsSize : sized = true → size = (tree.type type).arraySize)
      (inside : Resolves tree sized false inner innerCore) : Resolves tree sized const type core
  | name {const : Bool} {type core meant : TypeId}
      (stands : tree.standsFor? (tree.type type) = some meant)
      (behind : Resolves tree sized ((tree.type type).isConst || const) meant core) :
      Resolves tree sized const type core

/-- Whether a type is written by name, or around one that is. -/
inductive MentionsName (tree : DeclTree) : TypeId → Prop
  | name {type meant : TypeId} (stands : tree.standsFor? (tree.type type) = some meant) :
      MentionsName tree type
  | around {type inner : TypeId} (around : (tree.type type).around? = some inner)
      (inside : MentionsName tree inner) : MentionsName tree type

/-- Whether there is an array whose element is written by name, in a type or in what a name in it
stands for. -/
inductive LosesSize (tree : DeclTree) : TypeId → Prop
  | here {type element : TypeId} (isArray : (tree.type type).kind = .constantArray)
      (around : (tree.type type).around? = some element) (named : MentionsName tree element) :
      LosesSize tree type
  | around {type inner : TypeId} (around : (tree.type type).around? = some inner)
      (inside : LosesSize tree inner) : LosesSize tree type
  | name {type meant : TypeId} (stands : tree.standsFor? (tree.type type) = some meant)
      (behind : LosesSize tree meant) : LosesSize tree type

end DeclTree

namespace TreeBuilder.IsTyped

variable {bound : Nat} {builder : TreeBuilder} (typed : builder.IsTyped bound)
include typed

theorem formed (type : TypeId) : builder.tree.IsFormed (builder.tree.type type) := by
  by_cases inside : type < builder.tree.types.size
  · exact (typed.made inside).formed
  · rw [DeclTree.type_of_size_le (Nat.le_of_not_lt inside)]
    exact .plain rfl rfl rfl

theorem lt_of_standsFor? {type meant : TypeId}
    (stands : builder.tree.standsFor? (builder.tree.type type) = some meant) : meant < type := by
  by_cases inside : type < builder.tree.types.size
  · exact (typed.made inside).stands stands
  · rw [DeclTree.type_of_size_le (Nat.le_of_not_lt inside)] at stands
    cases stands

theorem lt_of_around? {type inner : TypeId}
    (around : (builder.tree.type type).around? = some inner) : inner < type :=
  typed.lt_of_mem_links (CppType.mem_links_of_pointee (CppType.around?_eq_some_iff.mp around).2)

/-! ## Forms -/

/-- The types that have another form are those that a name is mentioned in. -/
theorem mentionsName_iff (type : TypeId) :
    builder.tree.MentionsName type ↔ (builder.tree.type type).canonical ≠ none := by
  constructor
  · intro mentions
    induction mentions with
    | name stands =>
        obtain ⟨form, canonical, -⟩ := (typed.formed _).of_name stands
        exact Option.ne_none_iff_exists'.mpr ⟨form, canonical⟩
    | around around _ ih =>
        rcases (typed.formed _).of_around around with ⟨-, own⟩ | ⟨core, form, -, canonical, -⟩
        · exact absurd own ih
        · exact Option.ne_none_iff_exists'.mpr ⟨form, canonical⟩
  · induction type using Nat.strong_induction_on with
    | h type ih =>
        intro other
        cases typed.formed type with
        | plain own | around own => exact absurd own other
        | aroundName around behind =>
            exact .around around (ih _ (typed.lt_of_around? around)
              (Option.ne_none_iff_exists'.mpr ⟨_, behind⟩))
        | name stands => exact .name stands

theorem not_mentionsName_canonical (type : TypeId) :
    ¬ builder.tree.MentionsName (builder.tree.canonical type) := fun mentions =>
  (typed.mentionsName_iff _).mp mentions (typed.canonical_canonical type)

/-- The form of a type around another is around the form of the other.  It has the size that an
array has if no name is mentioned in the element, and none otherwise. -/
theorem canonical_around {type inner : TypeId}
    (around : (builder.tree.type type).around? = some inner) :
    ∃ spelling size, builder.tree.type (builder.tree.canonical type) =
        { builder.tree.type type with
          spelling, pointee := some (builder.tree.canonical inner), arraySize := size,
          canonical := none } ∧
      (¬ builder.tree.MentionsName inner → size = (builder.tree.type type).arraySize) ∧
      (builder.tree.MentionsName inner → size = none ∧
        (builder.tree.type type).arraySize.isSome =
          ((builder.tree.type type).kind == .constantArray)) := by
  have named := typed.mentionsName_iff inner
  rcases (typed.formed type).of_around around with
    ⟨own, core⟩ | ⟨core, form, behind, canonical, ⟨spelling, same⟩, sized⟩
  · refine ⟨(builder.tree.type type).spelling, (builder.tree.type type).arraySize, ?_, fun _ => rfl,
      fun mentions => absurd core (named.mp mentions)⟩
    rw [DeclTree.canonical, own, DeclTree.canonical, core, Option.getD_none, Option.getD_none,
      ← (CppType.around?_eq_some_iff.mp around).2, ← own]
  · have mentions := named.mpr (Option.ne_none_iff_exists'.mpr ⟨core, behind⟩)
    refine ⟨spelling, none, ?_, fun single => absurd mentions single, fun _ => ⟨rfl, sized⟩⟩
    rw [DeclTree.canonical, canonical, DeclTree.canonical, behind, Option.getD_some,
      Option.getD_some, same]

theorem canonical_name {type meant : TypeId}
    (stands : builder.tree.standsFor? (builder.tree.type type) = some meant) :
    builder.tree.type (builder.tree.canonical type) =
      (builder.tree.type (builder.tree.canonical meant)).constIf
        (builder.tree.type type).isConst := by
  obtain ⟨form, canonical, same⟩ := (typed.formed type).of_name stands
  rw [← same, DeclTree.canonical, canonical]
  rfl

/-- A type resolves to its form, whatever `const` is added to both, with the sizes of its arrays if
it loses none. -/
theorem resolves {sized : Bool} {type : TypeId}
    (keeps : sized = true → ¬ builder.tree.LosesSize type) {const : Bool} {core : TypeId}
    (same : builder.tree.type core =
      (builder.tree.type (builder.tree.canonical type)).constIf const) :
    builder.tree.Resolves sized const type core := by
  induction type using Nat.strong_induction_on generalizing const core with
  | h type ih =>
      cases stands : builder.tree.standsFor? (builder.tree.type type) with
      | some meant =>
          refine .name stands (ih meant (typed.lt_of_standsFor? stands)
            (fun counts loses => keeps counts (.name stands loses)) ?_)
          rw [same, typed.canonical_name stands, CppType.constIf_constIf]
      | none =>
          cases around : (builder.tree.type type).around? with
          | none =>
              have own := (typed.formed type).own_of_plain stands around
              refine .plain stands around ?_
              rw [same, DeclTree.canonical, own]
              rfl
          | some inner =>
              obtain ⟨spelling, size, form, unnamed, named⟩ := typed.canonical_around around
              refine .around around (same.trans (congrArg (CppType.constIf const) form))
                (fun counts => ?_) (ih inner (typed.lt_of_around? around)
                  (fun counts loses => keeps counts (.around around loses))
                  (CppType.constIf_false _).symm)
              by_cases mentions : builder.tree.MentionsName inner
              · obtain ⟨none, isSome⟩ := named mentions
                have other : (builder.tree.type type).kind ≠ .constantArray := fun isArray =>
                  keeps counts (.here isArray around mentions)
                rw [beq_eq_false_iff_ne.mpr other] at isSome
                rw [none, Option.not_isSome_iff_eq_none.mp (Bool.eq_false_iff.mp isSome)]
              · exact unnamed mentions

/-- What a type around another resolves to is around what that resolves to. -/
theorem resolves_around {sized const : Bool} {type core inner : TypeId}
    (around : (builder.tree.type type).around? = some inner)
    (same : builder.tree.type core =
      (builder.tree.type (builder.tree.canonical type)).constIf const)
    (resolves : builder.tree.Resolves sized const type core) :
    builder.tree.Resolves sized false inner (builder.tree.canonical inner) ∧
      (sized = true → (builder.tree.type core).arraySize = (builder.tree.type type).arraySize) := by
  obtain ⟨spelling, size, form, -⟩ := typed.canonical_around around
  rw [form] at same
  cases resolves with
  | plain _ single => cases single.symm.trans around
  | around alsoAround resolved keepsSize inside =>
      cases around.symm.trans alsoAround
      have pointees := congrArg CppType.pointee (resolved.symm.trans same)
      cases pointees
      refine ⟨inside, fun counts => ?_⟩
      rw [resolved]
      exact keepsSize counts
  | name stands => exact absurd stands (DeclTree.standsFor?_ne_of_around? around)

/-- A type that loses a size does not resolve to its form where sizes count. -/
theorem not_resolves {type : TypeId} (loses : builder.tree.LosesSize type) {const : Bool}
    {core : TypeId} (same : builder.tree.type core =
      (builder.tree.type (builder.tree.canonical type)).constIf const) :
    ¬ builder.tree.Resolves true const type core := by
  intro resolves
  induction loses generalizing const core with
  | here isArray around named =>
      obtain ⟨-, keepsSize⟩ := typed.resolves_around around same resolves
      obtain ⟨_, size, form, -, lost⟩ := typed.canonical_around around
      obtain ⟨rfl, isSome⟩ := lost named
      rw [← keepsSize rfl, same, form, isArray] at isSome
      cases isSome
  | around around _ ih =>
      exact ih (CppType.constIf_false _).symm (typed.resolves_around around same resolves).1
  | name stands _ ih =>
      cases resolves with
      | plain unnamed => cases unnamed.symm.trans stands
      | around around => exact absurd stands (DeclTree.standsFor?_ne_of_around? around)
      | name alsoStands behind =>
          cases stands.symm.trans alsoStands
          refine ih ?_ behind
          rw [same, typed.canonical_name stands, CppType.constIf_constIf]

end TreeBuilder.IsTyped

namespace DeclTree

/-- The canonical form of a type that steps have built mentions no name, and is the type with each
name replaced by what it stands for, the sizes of arrays apart.  It has the same sizes, too, if and
only if the element of no array in the type is written by name. -/
theorem canonical_keeps_shape_iff (path : String) {steps : List TreeBuilder.Step}
    (given : TreeBuilder.allGiven (.start path) steps = true) (type : TypeId) :
    let tree := ((TreeBuilder.start path).performAll steps).tree
    ¬ tree.MentionsName (tree.canonical type) ∧
      tree.Resolves false false type (tree.canonical type) ∧
      (tree.Resolves true false type (tree.canonical type) ↔ ¬ tree.LosesSize type) := by
  have typed := TreeBuilder.start_performAll_isTyped path given
  have same := (CppType.constIf_false
    (((TreeBuilder.start path).performAll steps).tree.type
      (((TreeBuilder.start path).performAll steps).tree.canonical type))).symm
  exact ⟨typed.not_mentionsName_canonical type, typed.resolves Bool.noConfusion same,
    fun resolves loses => typed.not_resolves loses same resolves,
    fun keeps => typed.resolves (fun _ => keeps) same⟩

/-- The steps for `typedef int Level`, `Level[3]` and `const Level &`. -/
def levelSteps : List TreeBuilder.Step :=
  [.builtin "int",
   .newTypedef .typedefDecl 0 "Level" 0,
   .typedefType 1,
   .array 2 3,
   .constRef 2]

def levelTree : DeclTree :=
  ((TreeBuilder.start "/src/unit.hpp").performAll levelSteps).tree

/-- The form of `const Level &` is `const int &`. -/
theorem level_reference_keeps_shape :
    TreeBuilder.allGiven (.start "/src/unit.hpp") levelSteps = true ∧
      levelTree.MentionsName 8 ∧ ¬ levelTree.MentionsName (levelTree.canonical 8) ∧
      ¬ levelTree.LosesSize 8 ∧ levelTree.canonicalSpelling 8 = "const int &" := by
  have given : TreeBuilder.allGiven (.start "/src/unit.hpp") levelSteps = true := by decide +kernel
  obtain ⟨unnamed, -, keeps⟩ := canonical_keeps_shape_iff "/src/unit.hpp" given 8
  have around : (levelTree.type 8).around? = some 6 := by decide +kernel
  have written : levelTree.standsFor? (levelTree.type 6) = some 1 := by decide +kernel
  have named : levelTree.standsFor? (levelTree.type 1) = some 0 := by decide +kernel
  have form : levelTree.type (levelTree.canonical 8) =
      { (levelTree.type 8).constIf false with
        spelling := "const int &", pointee := some 5, arraySize := none, canonical := none } := by
    decide +kernel
  have resolves : levelTree.Resolves true false 8 (levelTree.canonical 8) :=
    .around around form (fun _ => by decide +kernel) (.name written (.name named
      (.plain (by decide +kernel) (by decide +kernel) (by decide +kernel))))
  exact ⟨given, .around around (.name written), unnamed, keeps.mp resolves, by decide +kernel⟩

/-- The form of `Level[3]` has lost its size. -/
theorem level_array_loses_size :
    TreeBuilder.allGiven (.start "/src/unit.hpp") levelSteps = true ∧
      (levelTree.type 4).arraySize = some 3 ∧
      (levelTree.type (levelTree.canonical 4)).kind = .constantArray ∧
      (levelTree.type (levelTree.canonical 4)).arraySize = none ∧
      levelTree.canonicalSpelling 4 = "int" ∧
      ¬ levelTree.Resolves true false 4 (levelTree.canonical 4) := by
  have size : (levelTree.type 4).arraySize = some 3 := by decide +kernel
  have lost : (levelTree.type (levelTree.canonical 4)).arraySize = none := by decide +kernel
  have element : (levelTree.type 4).around? = some 2 := by decide +kernel
  refine ⟨by decide +kernel, size, by decide +kernel, lost, by decide +kernel, fun resolves => ?_⟩
  cases resolves with
  | plain _ single => cases single.symm.trans element
  | around _ same keepsSize =>
      rw [same, keepsSize rfl, size] at lost
      cases lost
  | name stands => exact standsFor?_ne_of_around? element stands

end DeclTree

end Bindery
