import Bindery.Proofs.Tree.Agreement
import Bindery.Spelling.BaseClass
import Bindery.Spelling.Default
import Mathlib.Data.List.Find

/-!
# Spellings of a region

Types, bases and default values are spelled alike in trees that agree on a region, if they belong to
it.
-/

set_option autoImplicit false

namespace Bindery

theorem findSome?_congr {α β : Type} {values : List α} {first second : α → Option β}
    (same : ∀ value ∈ values, first value = second value) :
    values.findSome? first = values.findSome? second := by
  induction values with
  | nil => rfl
  | cons value values ih =>
      obtain ⟨here, later⟩ := List.forall_mem_cons.mp same
      rw [List.findSome?_cons, List.findSome?_cons, here, ih later]

/-! ## Registries -/

namespace DeclTree.Agrees

open TypeRegistries

section

variable {tree other : DeclTree} {region : Region} (agrees : tree.Agrees other region) {id : DeclId}
  (known : region.decls id)
include agrees known

theorem isPlainTypedef_eq : isPlainTypedef other id = isPlainTypedef tree id := by
  simp only [isPlainTypedef, agrees.kind_eq known, agrees.anonymous_eq known,
    agrees.inClassTemplate_eq known]

theorem registeredType?_eq : registeredType? other id = registeredType? tree id := by
  simp only [registeredType?, agrees.isPlainTypedef_eq known, agrees.underlyingType_eq known,
    agrees.isStd_eq known]
  refine if_congr Iff.rfl (Option.map_congr fun type told => ?_) rfl
  rw [agrees.canonicalSpelling_eq (agrees.closed.typed (Decl.mem_types_of_underlyingType told))]

theorem namesType_eq : namesType other id = namesType tree id := by
  simp only [namesType, agrees.isPlainTypedef_eq known, agrees.kind_eq known,
    agrees.anonymous_eq known]

theorem registeredName?_eq : registeredName? other id = registeredName? tree id := by
  simp only [registeredName?, agrees.namesType_eq known, agrees.spelling_eq known,
    agrees.qualifiedName_eq known, agrees.isStd_eq known]

omit known in
/-- The registries are the same if the other tree has no declarations beside the region that name a
type. -/
theorem registries_eq {added : List DeclId} (ids : other.ids = tree.ids ++ added)
    (known : ∀ id ∈ tree.ids, region.decls id) (silent : ∀ id ∈ added, namesType other id = false) :
    ofTree other = ofTree tree := by
  have types : added.filterMap (registeredType? other) = [] := by
    refine List.filterMap_eq_nil_iff.mpr fun id member => ?_
    rw [registeredType?, (Bool.or_eq_false_iff.mp (silent id member)).1]
    rfl
  have names : added.filterMap (registeredName? other) = [] := by
    refine List.filterMap_eq_nil_iff.mpr fun id member => ?_
    rw [registeredName?, silent id member]
    rfl
  rw [ofTree, ofTree, ids, List.filterMap_append, List.filterMap_append, types, names,
    List.append_nil, List.append_nil,
    List.filterMap_congr fun id member => agrees.registeredType?_eq (known id member),
    List.filterMap_congr fun id member => agrees.registeredName?_eq (known id member)]

end

end DeclTree.Agrees

/-! ## Types -/

namespace Speller

/-- The speller that finds its declarations in another tree. -/
def upon (speller : Speller) (tree : DeclTree) : Speller :=
  ⟨tree, speller.registries⟩

@[simp] theorem upon_tree (speller : Speller) (tree : DeclTree) : (speller.upon tree).tree = tree :=
  rfl

@[simp] theorem upon_registries (speller : Speller) (tree : DeclTree) :
    (speller.upon tree).registries = speller.registries :=
  rfl

end Speller

namespace DeclTree

namespace Agrees

variable {speller : Speller} {other : DeclTree} {region : Region}
  (agrees : speller.tree.Agrees other region)
include agrees

section Decls

variable {id : DeclId} (known : region.decls id)
include known

theorem memberTypedef_eq (inside : speller.tree.inClassTemplate id = true) :
    (speller.upon other).memberTypedef id = speller.memberTypedef id := by
  obtain ⟨same, whole⟩ := agrees.parent_of_inClassTemplate known inside
  simp only [Speller.memberTypedef, Speller.upon_tree, agrees.spelling_eq known, same]
  split
  · rename_i parent above
    rw [agrees.qualifiedDisplayName_eq (whole parent above)]
  · rfl

theorem spellTemplate_eq (spelling : String) :
    (speller.upon other).spellTemplate spelling id = speller.spellTemplate spelling id := by
  simp only [Speller.spellTemplate, Speller.upon_tree, Speller.upon_registries,
    agrees.qualifiedName_eq known]

theorem spellTypedef_eq (spelling : String) :
    (speller.upon other).spellTypedef spelling id = speller.spellTypedef spelling id := by
  simp only [Speller.spellTypedef, Speller.upon_tree, Speller.upon_registries,
    agrees.inClassTemplate_eq known, agrees.qualifiedName_eq known]
  split
  · rename_i inside
    exact agrees.memberTypedef_eq known inside
  · rfl

theorem spellRecord_eq {type : TypeId} (knownType : region.types type) :
    (speller.upon other).spellRecord type id = speller.spellRecord type id := by
  simp only [Speller.spellRecord, Speller.upon_tree, Speller.upon_registries,
    agrees.qualifiedName_eq known, agrees.type_eq knownType, agrees.canonical_eq knownType,
    agrees.type_eq (agrees.closed.canonical knownType)]

end Decls

section Types

variable {type : TypeId} (known : region.types type)
include known

theorem spellNamed_eq : (speller.upon other).spellNamed type = speller.spellNamed type := by
  simp only [Speller.spellNamed, Speller.upon_tree, agrees.type_eq known,
    agrees.typeDeclaration_eq known]
  split
  · rfl
  · rename_i id declared
    have knownDecl := agrees.closed.typeDeclaration declared
    simp only [agrees.kind_eq knownDecl, agrees.spellTemplate_eq knownDecl,
      agrees.spellTypedef_eq knownDecl, agrees.spellRecord_eq knownDecl known,
      agrees.qualifiedName_eq knownDecl]

theorem functionBehind?_eq :
    Speller.functionBehind? other type = Speller.functionBehind? speller.tree type := by
  have canonical : (speller.tree.type type).canonical.map other.type =
      (speller.tree.type type).canonical.map speller.tree.type :=
    Option.map_congr fun core told =>
      agrees.type_eq (agrees.closed.made known (by simp [CppType.links, told]))
  unfold Speller.functionBehind?
  dsimp only
  rw [agrees.type_eq known, canonical]

omit known in
theorem spellTo_eq (depth : Nat) {type : TypeId} (known : region.types type) :
    (speller.upon other).spellTo depth type = speller.spellTo depth type := by
  induction depth generalizing type with
  | zero => rw [Speller.spellTo, Speller.spellTo, Speller.upon_tree, agrees.type_eq known]
  | succ depth ih =>
      refine Speller.spellTo_succ_congr (agrees.type_eq known) (agrees.spellNamed_eq known)
        (fun pointee points => agrees.functionBehind?_eq (agrees.closed.pointee known points))
        fun inner isPart => ih (agrees.closed.isPart known isPart)

theorem spell_eq : (speller.upon other).spell type = speller.spell type := by
  rw [Speller.spell, Speller.spell, agrees.spellTo_eq _ known]
  exact agrees.steps_eq (fun lower => Speller.spellTo_eq_of_rank_lt lower) type

theorem spellValue_eq : (speller.upon other).spellValue type = speller.spellValue type := by
  simp only [Speller.spellValue, Speller.upon_tree, agrees.nonReference_eq known,
    agrees.spell_eq (agrees.closed.nonReference known)]

end Types

/-- What may tell of no type is spelled alike if it tells of one of the region. -/
theorem map_spell_eq {told : Option TypeId} (known : ∀ type, told = some type → region.types type) :
    told.map (speller.upon other).spell = told.map speller.spell :=
  Option.map_congr fun type told => agrees.spell_eq (known type told)

section Functions

variable {function : DeclId}

theorem spelledResult_eq (known : region.decls function) :
    (speller.upon other).resultType function = speller.resultType function := by
  rw [Speller.resultType, Speller.resultType, Speller.upon_tree, agrees.resultType_eq known,
    agrees.map_spell_eq fun _ told => agrees.closed.typed (Decl.mem_types_of_resultType told)]

variable (whole : region.wholes function)
include whole

theorem parameterTypes_eq :
    (speller.upon other).parameterTypes function = speller.parameterTypes function := by
  rw [Speller.parameterTypes, Speller.parameterTypes, Speller.upon_tree,
    agrees.parameters_eq whole]
  refine List.map_congr_left fun param member => ?_
  rw [agrees.declType_eq (agrees.closed.childOfKind member),
    agrees.map_spell_eq fun _ told => agrees.closed.typed (Decl.mem_types_of_type told)]

theorem functionSignature_eq :
    (speller.upon other).functionSignature function = speller.functionSignature function := by
  rw [Speller.functionSignature, Speller.functionSignature,
    agrees.spelledResult_eq (agrees.closed.decl whole), agrees.parameterTypes_eq whole]

theorem methodSignature_eq (classType : String) :
    (speller.upon other).methodSignature function classType =
      speller.methodSignature function classType := by
  have known := agrees.closed.decl whole
  rw [Speller.methodSignature, Speller.methodSignature, agrees.spelledResult_eq known,
    agrees.parameterTypes_eq whole, Speller.upon_tree, agrees.has_eq known]

end Functions

end Agrees

end DeclTree

/-! ## Bases -/

/-- Whether the declarations behind a base belong to a region of a tree. -/
def BaseClass.IsInside (region : DeclTree.Region) : BaseClass → Prop
  | .instantiation template _ _ => region.wholes template
  | .plain _ decl => ∀ id, decl = some id → region.decls id

namespace DeclTree.Agrees

variable {speller : Speller} {other : DeclTree} {region : Region}
  (agrees : speller.tree.Agrees other region)
include agrees

theorem publicBase?_eq {id : DeclId} (whole : region.wholes id) :
    other.publicBase? id = speller.tree.publicBase? id := by
  rw [publicBase?, publicBase?, agrees.children_eq whole]
  refine List.find?_congr fun child member => ?_
  have known := agrees.closed.child member
  simp only [agrees.kind_eq known, agrees.access_eq known]

theorem baseTemplate?_eq {base : DeclId} (whole : region.wholes base) :
    other.baseTemplate? base = speller.tree.baseTemplate? base := by
  have mentioned : (other.children base).findSome? (fun child =>
        if (other.decl child).kind == .templateRef then (other.decl child).referenced
        else none) =
      (speller.tree.children base).findSome? fun child =>
        if (speller.tree.decl child).kind == .templateRef then
          (speller.tree.decl child).referenced
        else none := by
    rw [agrees.children_eq whole]
    refine findSome?_congr fun child member => ?_
    have known := agrees.closed.child member
    rw [agrees.kind_eq known, agrees.referenced_eq known]
  unfold baseTemplate?
  dsimp only
  rw [mentioned, agrees.declType_eq (agrees.closed.decl whole)]
  refine congrArg _ ?_
  cases told : (speller.tree.decl base).type with
  | none => rfl
  | some type =>
      dsimp only [Option.bind_eq_bind, Option.bind_some]
      rw [agrees.typeDeclaration_eq (agrees.closed.typed (Decl.mem_types_of_type told))]
      cases declared : speller.tree.typeDeclaration type with
      | none => rfl
      | some declaration =>
          have known := agrees.closed.typeDeclaration declared
          dsimp only [Option.bind_some]
          rw [agrees.kind_eq known, agrees.specializedTemplate_eq known]

/-- The class template behind a base is meant as a whole. -/
theorem whole_of_baseTemplate? {base template : DeclId}
    (behind : speller.tree.baseTemplate? base = some template) : region.wholes template := by
  have closed := agrees.closed
  unfold baseTemplate? at behind
  rcases Option.or_eq_some_iff.mp behind with mentioned | ⟨-, declared⟩
  · obtain ⟨child, member, found⟩ := List.exists_of_findSome?_eq_some mentioned
    dsimp only at found
    split at found
    · rename_i isReference
      exact closed.mentions (eq_of_beq isReference) found
    · cases found
  · obtain ⟨type, -, declares⟩ := Option.bind_eq_some_iff.mp declared
    obtain ⟨declaration, found, known⟩ := Option.bind_eq_some_iff.mp declares
    split at known
    · rename_i isTemplate
      cases known
      exact closed.whole_of_kind (closed.typeDeclaration found) (eq_of_beq isTemplate) (by decide)
    · exact closed.specializes known

theorem resolveBase?_eq {id : DeclId} (whole : region.wholes id) (params args : List String) :
    (speller.upon other).resolveBase? id params args = speller.resolveBase? id params args := by
  unfold Speller.resolveBase?
  dsimp only [Speller.upon_tree]
  rw [agrees.publicBase?_eq whole]
  cases found : speller.tree.publicBase? id with
  | none => rfl
  | some base =>
      have known := agrees.closed.child (List.mem_of_find?_eq_some found)
      have wholeBase : region.wholes base := by
        have isBase := List.find?_some found
        simp only [Bool.and_eq_true, beq_iff_eq] at isBase
        exact agrees.closed.whole_of_kind known isBase.1 (by decide)
      dsimp only [Option.bind_eq_bind, Option.bind_some]
      rw [agrees.declType_eq known]
      cases told : (speller.tree.decl base).type with
      | none => rfl
      | some type =>
          have knownType := agrees.closed.typed (Decl.mem_types_of_type told)
          dsimp only [Option.bind_some]
          rw [agrees.spell_eq knownType, agrees.baseTemplate?_eq wholeBase,
            agrees.typeDeclaration_eq knownType]
          split
          · rename_i template _ _ behind _
            rw [agrees.qualifiedName_eq (agrees.closed.decl (agrees.whole_of_baseTemplate? behind))]
          · rfl

theorem isInside_of_resolveBase? {id : DeclId} {params args : List String} {base : BaseClass}
    (resolved : speller.resolveBase? id params args = some base) : base.IsInside region := by
  obtain ⟨specifier, -, typed⟩ := Option.bind_eq_some_iff.mp resolved
  obtain ⟨type, -, made⟩ := Option.bind_eq_some_iff.mp typed
  dsimp only at made
  split at made
  · rename_i behind _
    cases made
    exact agrees.whole_of_baseTemplate? behind
  · cases made
    exact fun id declared => agrees.closed.typeDeclaration declared

theorem instantiateBase?_eq {template : DeclId} (whole : region.wholes template)
    (args : List String) :
    (speller.upon other).instantiateBase? template args =
      speller.instantiateBase? template args := by
  rw [Speller.instantiateBase?, Speller.instantiateBase?, Speller.upon_tree,
    agrees.parameterNames_eq whole, agrees.resolveBase?_eq whole]

end DeclTree.Agrees

/-! ## Default values -/

namespace DeclTree

/-- Trees that agree on a region, also in what takes its name from the scope around it: an enum
without a name that moves has no constants, no constant of an unscoped enum that moves is referred
to, and expressions mention the same. -/
structure NamesAlike (tree other : DeclTree) (region : Region) : Prop
    extends Agrees tree other region where
  unnamed : ∀ {id : DeclId}, region.decls id → (tree.decl id).kind = .enumDecl →
    (tree.decl id).anonymous = true →
    tree.Stays other id ∨ tree.childrenOfKind (· == .enumConstant) id = []
  referred : ∀ {id constant : DeclId}, (tree.decl id).referenced = some constant →
    (tree.decl constant).kind = .enumConstant → tree.Stays other constant ∧
      ∀ enum, tree.semanticParent constant = some enum →
        (tree.decl enum).has .isScopedEnum = false → tree.Stays other enum
  uses : ∀ {id child : DeclId}, child ∈ tree.children id →
    (other.descendants child).filterMap other.nameUse? =
      (tree.descendants child).filterMap other.nameUse?

namespace NamesAlike

variable {tree other : DeclTree} {region : Region} (alike : tree.NamesAlike other region)
include alike

theorem referenceName_eq {id target : DeclId} (refers : (tree.decl id).referenced = some target) :
    other.referenceName target = tree.referenceName target := by
  have known := alike.closed.refers refers
  unfold referenceName
  dsimp only
  rw [alike.kind_eq known, alike.spelling_eq known, alike.qualifiedName_eq known,
    alike.inClassTemplate_eq known]
  have scope : (if tree.inClassTemplate target then other.semanticParent target else none) =
      if tree.inClassTemplate target then tree.semanticParent target else none := by
    split_ifs with inside
    · exact (alike.parent_of_inClassTemplate known inside).1
    · rfl
  have displayed : ∀ parent,
      (if tree.inClassTemplate target then tree.semanticParent target else none) = some parent →
        other.qualifiedDisplayName parent = tree.qualifiedDisplayName parent := by
    intro parent above
    split_ifs at above with inside
    exact alike.qualifiedDisplayName_eq
      ((alike.parent_of_inClassTemplate known inside).2 parent above)
  split
  case h_1 | h_2 =>
    rw [scope]
    split
    · rename_i parent above
      rw [displayed parent above]
    · rfl
  · rename_i isConstant
    obtain ⟨stays, enumStays⟩ := alike.referred refers isConstant
    rw [stays]
    cases above : tree.semanticParent target with
    | none => rfl
    | some enum =>
        rw [Option.any_some, Option.any_some, alike.has_eq (alike.closed.parent above)]
        cases isScoped : (tree.decl enum).has .isScopedEnum with
        | true => rfl
        | false =>
            have outer := alike.parentName_eq (enumStays enum above isScoped)
            simp only [Option.bind_some, outer]
  · rfl

theorem defaultExpression?_eq {param : DeclId} (whole : region.wholes param) :
    other.defaultExpression? param = tree.defaultExpression? param := by
  unfold defaultExpression?
  rw [alike.children_eq whole]
  refine List.find?_congr fun child member => ?_
  rw [alike.kind_eq (alike.closed.child (List.mem_reverse.mp member))]

theorem nameUse?_eq {id : DeclId} (known : region.decls id) :
    other.nameUse? id = tree.nameUse? id := by
  unfold nameUse?
  dsimp only [Option.bind_eq_bind, Option.bind_none]
  rw [alike.kind_eq known, alike.spelling_eq known, alike.referenced_eq known]
  refine if_congr Iff.rfl (Option.bind_congr fun target refers => ?_) rfl
  rw [alike.referenceName_eq refers]

theorem nameUses_eq {param : DeclId} (whole : region.wholes param) :
    other.nameUses param = tree.nameUses param := by
  unfold nameUses
  rw [alike.defaultExpression?_eq whole]
  cases found : tree.defaultExpression? param with
  | none => rfl
  | some expression =>
      have member := List.mem_reverse.mp (List.mem_of_find?_eq_some found)
      have known := alike.closed.child member
      have below : (other.descendants expression).filterMap other.nameUse? =
          (tree.descendants expression).filterMap tree.nameUse? :=
        (alike.uses member).trans (List.filterMap_congr fun id member =>
          alike.nameUse?_eq (alike.closed.descendant member))
      dsimp only
      rw [List.filterMap_cons, List.filterMap_cons, alike.nameUse?_eq known, below]

theorem defaultValue?_eq {param : DeclId} (whole : region.wholes param) :
    other.defaultValue? param = tree.defaultValue? param := by
  rw [defaultValue?, defaultValue?, alike.extent_eq (alike.closed.decl whole),
    alike.nameUses_eq whole]

end NamesAlike

end DeclTree

end Bindery
