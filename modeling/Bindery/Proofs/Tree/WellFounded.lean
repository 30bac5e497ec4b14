import Bindery.Proofs.Spelling.Restoring
import Bindery.Proofs.Tree.Extension
import Bindery.Proofs.Tree.MadeTypes
import Bindery.Proofs.Tree.StackWalk
import Mathlib.Data.List.Count

/-!
# Trees that come to an end

Whatever steps build leads from declarations to earlier scopes and from types to earlier types, and
holds each declaration once.  So no question about the tree follows its links for ever, and asking
it to follow them further than there are declarations or types changes no answer.
-/

set_option autoImplicit false

namespace Bindery

/-! ## Texts -/

namespace Text

theorem length_lt_of_splitTemplate {text base args rest : String}
    (split : splitTemplate text = some (base, args, rest)) : args.length < text.length := by
  have parts := congrArg String.length (splitTemplate_eq_some_iff.mp split).1
  simp only [String.length_append] at parts
  have mark : "<".length = 1 := rfl
  omega

theorem length_le_of_mem_templateArgs {arg args : String} (member : arg ∈ templateArgs args) :
    arg.length ≤ args.length := by
  obtain ⟨cs, isArg, rfl⟩ := List.mem_map.mp member
  have le := Chars.length_le_of_mem_templateArgs isArg
  rwa [String.length_ofList, ← String.length_toList]

end Text

/-- Arguments are shorter than what they are arguments of, so writing them out comes to an end. -/
theorem TypeRegistries.qualifyTemplateTo_eq_of_length_lt (registries : TypeRegistries)
    {depth more : Nat} {text : String} (enough : text.length < depth)
    (alsoEnough : text.length < more) :
    registries.qualifyTemplateTo depth text = registries.qualifyTemplateTo more text := by
  induction depth generalizing more text with
  | zero => exact absurd enough (Nat.not_lt_zero _)
  | succ depth ih =>
      obtain ⟨more, rfl⟩ := Nat.exists_eq_add_of_le' (Nat.one_le_of_lt alsoEnough)
      rw [qualifyTemplateTo, qualifyTemplateTo]
      cases split : Text.splitTemplate text with
      | none => rfl
      | some parts =>
          obtain ⟨base, args, rest⟩ := parts
          have inside := Text.length_lt_of_splitTemplate split
          have same : (Text.templateArgs args).map (registries.qualifyTemplateTo depth) =
              (Text.templateArgs args).map (registries.qualifyTemplateTo more) := by
            refine List.map_congr_left fun arg member => ?_
            have within := Text.length_le_of_mem_templateArgs member
            exact ih (by omega) (by omega)
          dsimp only
          rw [same]

namespace Spelling

theorem restoreArg_congr {depth more : Nat} {core : String}
    (same : ∀ {base args rest}, Text.splitTemplate core = some (base, args, rest) →
      ∀ written, restoreArgsTo depth written args = restoreArgsTo more written args)
    (own? : Option String) : restoreArg depth own? core = restoreArg more own? core := by
  unfold restoreArg
  cases own? with
  | none => rfl
  | some own =>
      refine if_congr Iff.rfl rfl (if_congr Iff.rfl rfl ?_)
      cases Text.splitTemplate own with
      | none => rfl
      | some parts =>
          cases split : Text.splitTemplate core with
          | none => rfl
          | some coreParts =>
              dsimp only
              rw [same split]

theorem restoreArgsTo_eq_of_length_lt {depth more : Nat} {written canonical : String}
    (enough : canonical.length < depth) (alsoEnough : canonical.length < more) :
    restoreArgsTo depth written canonical = restoreArgsTo more written canonical := by
  induction depth generalizing more written canonical with
  | zero => exact absurd enough (Nat.not_lt_zero _)
  | succ depth ih =>
      obtain ⟨more, rfl⟩ := Nat.exists_eq_add_of_le' (Nat.one_le_of_lt alsoEnough)
      rw [restoreArgsTo_succ, restoreArgsTo_succ]
      refine congrArg Text.joinArgs (List.ext_getElem? fun index => ?_)
      rw [List.getElem?_mapIdx, List.getElem?_mapIdx]
      refine Option.map_congr fun core member => restoreArg_congr (fun split written => ?_) _
      have within := Text.length_le_of_mem_templateArgs
        (List.mem_of_getElem? (Option.mem_def.mp member))
      have inside := Text.length_lt_of_splitTemplate split
      exact ih (by omega) (by omega)

end Spelling

namespace DeclTree

/-! ## Order -/

/-- Whether declarations and types come in order.  Each declaration other than the unit and the
instantiations is a child once, of the scope that it belongs to and stands in, and instantiations
are children of none; scopes come before what belongs to them, and a type comes behind all that it
leads to.  The form of a type is its own form. -/
structure IsOrdered (tree : DeclTree) : Prop where
  held : ∀ {id : DeclId}, id < tree.size → id ≠ root →
    (tree.decl id).specializedTemplate = none →
    ∃ parent, tree.semanticParent id = some parent ∧
      (tree.decl id).lexicalParent = some parent ∧ id ∈ tree.children parent ∧
      (tree.ids.flatMap tree.children).count id = 1
  apart : ∀ {id : DeclId}, (tree.decl id).specializedTemplate ≠ none →
    id ∉ tree.ids.flatMap tree.children
  parent_lt : ∀ {id parent : DeclId}, tree.semanticParent id = some parent → parent < id
  link_lt : ∀ {type inner : TypeId}, inner ∈ (tree.type type).links → inner < type
  form : ∀ type : TypeId, tree.canonical (tree.canonical type) = tree.canonical type

theorem IsForest.nodup_children {tree : DeclTree} (forest : tree.IsForest) :
    (tree.ids.flatMap tree.children).Nodup := by
  refine List.nodup_flatMap.mpr ⟨fun id _ => forest.once id, ?_⟩
  refine List.nodup_range.imp fun {first second} apart child isFirst isSecond => ?_
  exact apart (forest.alone isFirst isSecond)

theorem IsPlanted.isOrdered {builder : TreeBuilder} {bound : Nat} (planted : builder.tree.IsPlanted)
    (typed : builder.IsTyped bound) : builder.tree.IsOrdered where
  held := by
    intro id inside apart own
    obtain ⟨parent, within, around, held⟩ := planted.held inside apart own
    have listed : id ∈ builder.tree.ids.flatMap builder.tree.children :=
      List.mem_flatMap.mpr ⟨parent, List.mem_range.mpr (lt_size_of_mem_children held), held⟩
    exact ⟨parent, within, around, held,
      List.count_eq_one_of_mem planted.toIsForest.nodup_children listed⟩
  apart := by
    intro id instantiated listed
    obtain ⟨parent, -, held⟩ := List.mem_flatMap.mp listed
    exact instantiated (planted.original held)
  parent_lt := planted.parent_lt
  link_lt := typed.lt_of_mem_links
  form := fun type => by
    rw [DeclTree.canonical, typed.canonical_canonical type]
    rfl

/-! ## Endings -/

/-- Whether all that the questions about a tree follow comes to an end: the way up, the way down
and the way from a type to its parts.  Following a link more than there are declarations or types
changes no answer, nor does writing out the arguments in a text deeper than the text is long; and
the loop with a stack ends with the declarations below. -/
structure AnswersEnd (tree : DeclTree) : Prop where
  up : WellFounded fun outer inner => tree.semanticParent inner = some outer
  down : WellFounded fun inner outer => inner ∈ tree.children outer
  parts : WellFounded tree.IsPart
  ancestors : ∀ {steps : Nat}, tree.size ≤ steps → ∀ id,
    tree.ancestorsTo steps id = tree.ancestors id
  descendants : ∀ {steps : Nat}, tree.size ≤ steps → ∀ id,
    tree.descendantsTo steps id = tree.descendants id ∧
      StackWalk.run? tree steps (StackWalk.start tree id) = some (tree.descendants id)
  nonReference : ∀ {steps : Nat}, tree.types.size < steps → ∀ type,
    tree.nonReferenceTo steps type = tree.nonReference type
  typeDeclaration : ∀ {steps : Nat}, tree.types.size < steps → ∀ type,
    tree.typeDeclarationTo steps type = tree.typeDeclaration type
  spell : ∀ (registries : TypeRegistries) {steps : Nat}, tree.types.size < steps → ∀ type,
    (Speller.mk tree registries).spellTo steps type = (Speller.mk tree registries).spell type
  qualify : ∀ (registries : TypeRegistries) (text : String) {steps : Nat}, text.length < steps →
    registries.qualifyTemplateTo steps text = registries.qualifyTemplate text
  restore : ∀ (written canonical : String) {steps : Nat}, canonical.length < steps →
    Spelling.restoreArgsTo steps written canonical = Spelling.restoreArgs written canonical

theorem IsForest.length_descendants_le {tree : DeclTree} (forest : tree.IsForest) (id : DeclId) :
    (tree.descendants id).length ≤ tree.size := by
  have once := nodup_descendants forest.lt_child forest.alone forest.once id
  have inside : tree.descendants id ⊆ tree.ids := by
    intro low below
    obtain ⟨outer, held, -⟩ := Relation.TransGen.head'_iff.mp
      ((mem_descendants_iff forest.lt_child).mp below)
    exact List.mem_range.mpr (forest.child_lt held)
  have le := (List.subperm_of_subset once inside).length_le
  rwa [ids, List.length_range] at le

theorem IsForest.answersEnd {tree : DeclTree} (forest : tree.IsForest)
    (finite : tree.HasFiniteTypes) : tree.AnswersEnd := by
  have ranked := forest.toIsGrounded.isRanked
  obtain ⟨rank, bounded, lower⟩ := finite
  have within (type : TypeId) : rank type < tree.types.size + 1 := Nat.lt_succ_of_le (bounded type)
  refine
    { up := Subrelation.wf (fun inside => forest.parent_lt inside) Nat.lt_wfRel.wf
      down := ⟨fun id => ranked.ranksChildren.induction (fun id ih => Acc.intro id ih) id⟩
      parts := Subrelation.wf (fun part => lower _ _ part) (InvImage.wf rank Nat.lt_wfRel.wf)
      ancestors := fun {steps} enough id => ?_
      descendants := fun {steps} enough id => ⟨?_, ?_⟩
      nonReference := fun {steps} enough type =>
        nonReferenceTo_eq_of_rank_lt lower ((bounded type).trans_lt enough) (within type)
      typeDeclaration := fun {steps} enough type =>
        typeDeclarationTo_eq_of_rank_lt lower ((bounded type).trans_lt enough) (within type)
      spell := fun registries {steps} enough type =>
        Speller.spellTo_eq_of_rank_lt lower ((bounded type).trans_lt enough) (within type)
      qualify := fun registries text {steps} enough =>
        registries.qualifyTemplateTo_eq_of_length_lt enough (Nat.lt_succ_self _)
      restore := fun written canonical {steps} enough =>
        Spelling.restoreArgsTo_eq_of_length_lt enough (Nat.lt_succ_self _) }
  · by_cases inside : id < tree.size
    · exact ranked.ancestorsTo_eq (inside.le.trans enough) inside.le
    · have top : tree.semanticParent id = none := by
        rw [semanticParent, decl_of_size_le (Nat.le_of_not_lt inside)]
        rfl
      rw [ancestorsTo_eq_nil top, DeclTree.ancestors, ancestorsTo_eq_nil top]
  · exact ranked.ranksChildren.descendantsTo_eq (enough.trans (Nat.le_add_right _ _))
      (Nat.le_add_right _ _)
  · rw [StackWalk.run?_start ranked.ranksChildren,
      if_pos ((forest.length_descendants_le id).trans enough)]

/-- Trees that steps build from what is there are in order, and all that is asked of them is
answered in the end. -/
theorem built_tree_is_well_founded (path : String) {steps : List TreeBuilder.Step}
    (given : TreeBuilder.allGiven (.start path) steps = true) :
    ((TreeBuilder.start path).performAll steps).tree.IsOrdered ∧
      ((TreeBuilder.start path).performAll steps).tree.AnswersEnd := by
  have planted := TreeBuilder.start_performAll_isPlanted path (TreeBuilder.allFit_of_allGiven given)
  have ordered := planted.isOrdered (TreeBuilder.start_performAll_isTyped path given)
  exact ⟨ordered, planted.toIsForest.answersEnd
    (hasFiniteTypes_of_earlier fun _ _ _ leads => ordered.link_lt leads)⟩

/-- The steps for a template with an instantiation, a typedef of that and a function that takes a
reference to the typedef. -/
def gridSteps : List TreeBuilder.Step :=
  [.builtin "void",
   .classTemplate 0 "Grid" ["T"],
   .specialization 1 "int",
   .named 3,
   .newTypedef .typedefDecl 0 "IntGrid" 2,
   .typedefType 4,
   .constRef 4,
   .function .functionDecl 0 "fill" 0,
   .param 5 "grid" 8]

def gridTree : DeclTree :=
  ((TreeBuilder.start "/src/unit.hpp").performAll gridSteps).tree

theorem grid_is_well_founded :
    TreeBuilder.allGiven (.start "/src/unit.hpp") gridSteps = true ∧
      (gridTree.ids.flatMap gridTree.children).count 5 = 1 ∧
      3 ∉ gridTree.ids.flatMap gridTree.children ∧
      (∀ inner ∈ (gridTree.type 8).links, inner < 8) ∧ gridTree.AnswersEnd := by
  have given : TreeBuilder.allGiven (.start "/src/unit.hpp") gridSteps = true := by decide +kernel
  obtain ⟨ordered, answersEnd⟩ := built_tree_is_well_founded "/src/unit.hpp" given
  obtain ⟨-, -, -, -, once⟩ := ordered.held (show 5 < gridTree.size by decide +kernel)
    (by decide) (by decide +kernel)
  exact ⟨given, once, ordered.apart (by decide +kernel), fun _ => ordered.link_lt, answersEnd⟩

end DeclTree

end Bindery
