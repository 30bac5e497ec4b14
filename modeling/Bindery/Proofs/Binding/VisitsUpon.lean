import Bindery.Proofs.Binding.Agreement
import Mathlib.Data.List.ReduceOption

/-!
# Visits upon another tree

Classes have the same members upon a tree that agrees with their own, and each visit that keeps to
the region on which they agree gives the same fragments.
-/

set_option autoImplicit false

namespace Bindery

/-! ## Iterators -/

namespace DeclTree.Agrees

section Iterators

variable {speller : Speller} {other : DeclTree} {region : Region}
  (agrees : speller.tree.Agrees other region) {id : DeclId} (whole : region.wholes id)
include agrees whole

theorem boundMethod?_eq (name : String) (isConst : Bool) :
    other.boundMethod? id name isConst = speller.tree.boundMethod? id name isConst := by
  rw [boundMethod?, boundMethod?, agrees.children_eq whole]
  refine List.find?_congr fun child member => ?_
  have known := agrees.closed.child member
  dsimp only
  rw [agrees.kind_eq known]
  cases isMethod : (speller.tree.decl child).kind == .method with
  | false => simp only [Bool.false_and]
  | true =>
      have wholeChild := agrees.closed.whole_of_kind known (eq_of_beq isMethod) (by decide)
      rw [agrees.spelling_eq known, agrees.has_eq known, agrees.has_eq known,
        agrees.has_eq known, agrees.access_eq known, agrees.parameters_eq wholeChild]

theorem beginOfPair?_eq (first last : String) (isConst : Bool) :
    other.beginOfPair? id first last isConst =
      speller.tree.beginOfPair? id first last isConst := by
  rw [beginOfPair?, beginOfPair?, agrees.boundMethod?_eq whole, agrees.boundMethod?_eq whole]

omit whole in
/-- A begin method is a method of the region. -/
theorem whole_of_beginOfPair? {first last : String} {isConst : Bool} {start : DeclId}
    (found : speller.tree.beginOfPair? id first last isConst = some start) :
    region.wholes start := by
  obtain ⟨method, bound, rest⟩ := Option.bind_eq_some_iff.mp found
  obtain ⟨-, -, same⟩ := Option.bind_eq_some_iff.mp rest
  cases same
  have isMethod := List.find?_some bound
  simp only [Bool.and_eq_true, beq_iff_eq] at isMethod
  exact agrees.closed.whole_of_kind (agrees.closed.child (List.mem_of_find?_eq_some bound))
    isMethod.1.1.1.1.1.1 (by decide)

theorem pairBindings_eq (classType first last rubyName : String) :
    (speller.upon other).pairBindings id classType first last rubyName =
      speller.pairBindings id classType first last rubyName := by
  have signatures : ∀ isConst start,
      speller.tree.beginOfPair? id first last isConst = some start →
        (speller.upon other).methodSignature start classType =
          speller.methodSignature start classType := fun isConst start found =>
    agrees.methodSignature_eq (agrees.whole_of_beginOfPair? found) classType
  unfold Speller.pairBindings
  dsimp only [Speller.upon_tree]
  rw [agrees.beginOfPair?_eq whole, agrees.beginOfPair?_eq whole]
  cases mutable : speller.tree.beginOfPair? id first last false <;>
    cases constant : speller.tree.beginOfPair? id first last true <;>
    simp [signatures false, signatures true, mutable, constant]

theorem iteratorBindings_eq (classType : String) :
    (speller.upon other).iteratorBindings id classType = speller.iteratorBindings id classType := by
  simp only [Speller.iteratorBindings, agrees.pairBindings_eq whole]

end Iterators

section Traits

variable {speller : Speller} {other : DeclTree} {region : Region}
  (agrees : speller.tree.Agrees other region) {sources : List DeclId}
include agrees

/-- The classes in which the traits of an iterator are looked for belong to the region with all that
they hold. -/
theorem whole_of_traitSources {iterator : DeclId} (known : region.decls iterator)
    (isRecord : (speller.tree.decl iterator).kind.isRecord = true) :
    ∀ source ∈ iterator :: (speller.tree.decl iterator).definition.toList ++
        (speller.tree.decl iterator).specializedTemplate.toList, region.wholes source := by
  intro source member
  rw [List.mem_append, List.mem_cons, Option.mem_toList, Option.mem_toList] at member
  obtain (rfl | defined) | specialized := member
  · refine agrees.closed.whole known ?_
    rintro (kind | kind) <;> rw [kind] at isRecord <;> cases isRecord
  · exact agrees.closed.defines defined
  · exact agrees.closed.specializes specialized

theorem declaresAllTraits_eq (wholes : ∀ source ∈ sources, region.wholes source) :
    Speller.declaresAllTraits other sources = Speller.declaresAllTraits speller.tree sources := by
  unfold Speller.declaresAllTraits
  refine congrArg _ (funext fun name => any_congr fun source member => ?_)
  rw [agrees.children_eq (wholes source member)]
  refine any_congr fun child member => ?_
  have known := agrees.closed.child member
  rw [agrees.kind_eq known, agrees.spelling_eq known]

theorem dereference?_eq (wholes : ∀ source ∈ sources, region.wholes source) :
    Speller.dereference? other sources = Speller.dereference? speller.tree sources := by
  unfold Speller.dereference?
  refine findSome?_congr fun source member => ?_
  rw [agrees.children_eq (wholes source member)]
  refine List.find?_congr fun child member => ?_
  have known := agrees.closed.child member
  rw [agrees.kind_eq known, agrees.spelling_eq known]

theorem decls_of_dereference? {dereference : DeclId}
    (found : Speller.dereference? speller.tree sources = some dereference) :
    region.decls dereference := by
  obtain ⟨source, -, operator⟩ := List.exists_of_findSome?_eq_some found
  exact agrees.closed.child (List.mem_of_find?_eq_some operator)

theorem dereferencedType_eq {iterator dereference : DeclId} (known : region.decls iterator)
    (knownOperator : region.decls dereference) {result : TypeId}
    (knownResult : region.types result) :
    (speller.upon other).dereferencedType iterator dereference result =
      speller.dereferencedType iterator dereference result := by
  unfold Speller.dereferencedType
  dsimp only [Speller.upon_tree]
  rw [agrees.spell_eq knownResult, agrees.specializedTemplate_eq known,
    agrees.displayName_eq known]
  cases specialized : (speller.tree.decl iterator).specializedTemplate with
  | none => rfl
  | some template =>
      have whole := agrees.closed.specializes specialized
      have belongs : other.semanticParent dereference = some template ↔
          speller.tree.semanticParent dereference = some template := by
        rcases agrees.parents knownOperator with
          stays | ⟨outer, inner, here, there, -, -, outside, apart⟩
        · rw [stays]
        · rw [here, there, Option.some.injEq, Option.some.injEq]
          exact iff_of_false (fun same => apart (same ▸ whole)) fun same => outside (same ▸ whole)
      simp only [belongs, agrees.parameterNames_eq whole]

theorem inferTraits?_eq {start : DeclId} (known : region.decls start) (inTemplate : Bool) :
    (speller.upon other).inferTraits? start inTemplate =
      speller.inferTraits? start inTemplate := by
  unfold Speller.inferTraits?
  simp only [Speller.upon_tree, agrees.resultType_eq known, Option.bind_eq_bind, Option.bind_none]
  refine if_congr Iff.rfl rfl ?_
  cases told : (speller.tree.decl start).resultType with
  | none => simp only [Option.bind_none]
  | some result =>
      have knownResult := agrees.closed.typed (Decl.mem_types_of_resultType told)
      have value := agrees.closed.nonReference knownResult
      simp only [Option.bind_some, agrees.nonReference_eq knownResult, agrees.canonical_eq value,
        agrees.type_eq (agrees.closed.canonical value), agrees.typeDeclaration_eq value,
        agrees.canonicalSpelling_eq value]
      refine if_congr Iff.rfl rfl ?_
      cases declared : speller.tree.typeDeclaration (speller.tree.nonReference result) with
      | none => simp only [Option.bind_none]
      | some iterator =>
          have knownIterator := agrees.closed.typeDeclaration declared
          simp only [Option.bind_some, agrees.kind_eq knownIterator,
            agrees.isStd_eq knownIterator, agrees.definition_eq knownIterator,
            agrees.specializedTemplate_eq knownIterator]
          by_cases isOther :
              (!(speller.tree.decl iterator).kind.isRecord || speller.tree.isStd iterator) = true
          · rw [if_pos isOther, if_pos isOther]
          · rw [if_neg isOther, if_neg isOther]
            have isRecord : (speller.tree.decl iterator).kind.isRecord = true := by
              simp_all only [Bool.or_eq_true, Bool.not_eq_true', not_or, Bool.not_eq_false]
            have wholes := agrees.whole_of_traitSources knownIterator isRecord
            rw [agrees.declaresAllTraits_eq wholes, agrees.dereference?_eq wholes]
            refine if_congr Iff.rfl rfl ?_
            refine Option.bind_congr fun dereference found => ?_
            have knownOperator := agrees.decls_of_dereference? found
            rw [agrees.resultType_eq knownOperator]
            refine Option.bind_congr fun result gives => ?_
            rw [agrees.dereferencedType_eq knownIterator knownOperator
              (agrees.closed.typed (Decl.mem_types_of_resultType gives))]

end Traits

/-! ## Operators -/

section Operators

variable {speller : Speller} {other : DeclTree} {region : Region}
  (agrees : speller.tree.Agrees other region)
include agrees

theorem isUserClass_eq {type : TypeId} (known : region.types type) :
    (speller.upon other).isUserClass type = speller.isUserClass type := by
  unfold Speller.isUserClass
  dsimp only [Speller.upon_tree]
  rw [agrees.nonReference_eq known,
    agrees.typeDeclaration_eq (agrees.closed.nonReference known)]
  cases declared : speller.tree.typeDeclaration (speller.tree.nonReference type) with
  | none => rfl
  | some id =>
      have knownClass := agrees.closed.typeDeclaration declared
      rw [Option.any_some, Option.any_some, agrees.kind_eq knownClass,
        agrees.isStd_eq knownClass]

theorem operatorLambda?_eq (symbol name returnType : String) {types : List TypeId}
    (known : ∀ type ∈ types, region.types type) :
    (speller.upon other).operatorLambda? symbol name returnType types =
      speller.operatorLambda? symbol name returnType types := by
  match types with
  | [] => rfl
  | [receiver] => simp only [Speller.operatorLambda?, agrees.spell_eq (known receiver (by simp))]
  | [receiver, operand] =>
      simp only [Speller.operatorLambda?, agrees.spell_eq (known receiver (by simp)),
        agrees.spell_eq (known operand (by simp))]
  | _ :: _ :: _ :: _ => rfl

theorem printing_eq {type : TypeId} (known : region.types type) :
    (speller.upon other).printing type = speller.printing type := by
  simp only [Speller.printing, agrees.spellValue_eq known, agrees.spell_eq known]

omit agrees in
theorem types_of_operands (closed : region.IsClosed speller.tree) {params : List DeclId}
    {types : List TypeId}
    (told : (params.mapM fun param => (speller.tree.decl param).type) = some types) :
    ∀ type ∈ types, region.types type := by
  induction params generalizing types with
  | nil =>
      cases Option.some.inj told
      exact nofun
  | cons param params ih =>
      rw [List.mapM_cons] at told
      obtain ⟨type, here, told⟩ := Option.bind_eq_some_iff.mp told
      obtain ⟨behind, later, told⟩ := Option.bind_eq_some_iff.mp told
      cases Option.some.inj told
      exact List.forall_mem_cons.mpr ⟨closed.typed (Decl.mem_types_of_type here), ih later⟩

theorem freeOperator?_eq {function : DeclId} (whole : region.wholes function) :
    (speller.upon other).freeOperator? function = speller.freeOperator? function := by
  have known := agrees.closed.decl whole
  have operands : ((other.parameters function).mapM fun param => (other.decl param).type) =
      (speller.tree.parameters function).mapM fun param => (speller.tree.decl param).type := by
    rw [agrees.parameters_eq whole]
    exact mapM_congr fun param member => agrees.declType_eq (agrees.closed.childOfKind member)
  unfold Speller.freeOperator?
  dsimp only [Speller.upon_tree]
  rw [operands, agrees.spelling_eq known]
  refine Option.bind_congr fun symbol isOperator => Option.bind_congr fun types told => ?_
  match types, types_of_operands agrees.closed told with
  | [], _ => rfl
  | [first], inside =>
      have knownFirst := inside first (by simp)
      simp only [agrees.spell_eq knownFirst, agrees.isUserClass_eq knownFirst,
        agrees.operatorLambda?_eq _ _ _ inside, agrees.spellValue_eq knownFirst,
        agrees.spelledResult_eq known, List.head?_nil, Option.bind_eq_bind, Option.bind_none]
  | first :: second :: others, inside =>
      have knownFirst := inside first (by simp)
      have knownSecond := inside second (by simp)
      simp only [agrees.spell_eq knownFirst, agrees.isUserClass_eq knownFirst,
        agrees.operatorLambda?_eq _ _ _ inside, agrees.spellValue_eq knownFirst,
        agrees.spelledResult_eq known, List.head?_cons, Option.bind_eq_bind, Option.bind_some,
        agrees.isUserClass_eq knownSecond, agrees.printing_eq knownSecond]

end Operators

end DeclTree.Agrees

/-! ## Classes -/

namespace UnitContext

section Classes

variable {context : UnitContext} {other : DeclTree} {names : List String}
  {region : DeclTree.Region} (carries : context.CarriesOver other names region) {id : DeclId}
  (whole : region.wholes id)
include carries whole

theorem upon_implicitConstructor :
    (context.upon other names).implicitConstructor id = context.implicitConstructor id := by
  have declared : ((context.tree.children id).any fun child =>
        (other.decl child).kind == .constructor) =
      (context.tree.children id).any fun child =>
        (context.tree.decl child).kind == .constructor :=
    any_congr fun child member => by
      rw [carries.alike.kind_eq (carries.alike.closed.child member)]
  simp only [implicitConstructor, upon_tree,
    carries.alike.has_eq (carries.alike.closed.decl whole), carries.alike.children_eq whole,
    declared]

omit whole in
/-- The traits of the iterators of a class. -/
theorem upon_iteratorTraits (classType : String) (inTemplate : Bool) :
    (context.speller.iteratorBindings id classType).begins.filterMap
        ((context.speller.upon other).inferTraits? · inTemplate) =
      (context.speller.iteratorBindings id classType).begins.filterMap
        (context.speller.inferTraits? · inTemplate) := by
  have agrees : context.speller.tree.Agrees other region := carries.alike.toAgrees
  refine List.filterMap_congr fun start member => agrees.inferTraits?_eq ?_ inTemplate
  simp only [Speller.iteratorBindings, Speller.pairBindings, List.mem_append,
    Option.mem_toList] at member
  rcases member with (found | found) | (found | found) <;>
    exact agrees.closed.decl (agrees.whole_of_beginOfPair? found)

/-- The members of a class are the same if the signatures among them spare the class templates that
move. -/
theorem upon_classMembers (classType : String) {inTemplate : Bool}
    (spares : ∀ child ∈ context.tree.children id, context.accepts child = true →
      inTemplate = false → ∀ base ∈ context.signatureBases child,
        context.Spares other .empty base) :
    (context.upon other names).classMembers id classType inTemplate =
      context.classMembers id classType inTemplate := by
  have alike := carries.alike
  have members : ∀ isAbstract, (context.tree.children id).mapM
        ((context.upon other names).childMembers classType isAbstract inTemplate) =
      (context.tree.children id).mapM (context.childMembers classType isAbstract inTemplate) :=
    fun isAbstract => mapM_congr fun child member => upon_childMembers carries classType isAbstract
      (alike.closed.child member) (spares child member)
  unfold classMembers
  dsimp only
  rw [upon_tree, upon_speller, alike.has_eq (alike.closed.decl whole), alike.children_eq whole,
    members, alike.iteratorBindings_eq whole, upon_iteratorTraits carries,
    upon_implicitConstructor carries whole]

end Classes

/-! ## Visits -/

theorem bind_skipped_congr {α : Type} {context : UnitContext} {id : DeclId}
    {whenSkipped whenKept other : Gen α}
    (same : context.skipRule? id = none → whenKept = other) :
    (context.skipped id >>= fun skipped => if skipped then whenSkipped else whenKept) =
      context.skipped id >>= fun skipped => if skipped then whenSkipped else other := by
  unfold skipped
  split
  case h_1 => simp only [bind_assoc, pure_bind, if_true]
  case h_2 unlisted => simp only [pure_bind, Bool.false_eq_true, if_false, same unlisted]

section Visits

variable {context : UnitContext} {other : DeclTree} {names : List String}
  {region : DeclTree.Region} (carries : context.CarriesOver other names region) {id : DeclId}
  (known : region.decls id) (whole : region.wholes id)
include carries

section Known

include known

theorem upon_opaqueClass {siblings : List DeclId}
    (beside : ∀ sibling ∈ siblings, region.decls sibling) :
    (context.upon other names).opaqueClass siblings id = context.opaqueClass siblings id := by
  have alike := carries.alike
  have defined : ∀ name, (siblings.any fun sibling => (other.decl sibling).has .isDefinition &&
        (other.decl sibling).spelling == name) =
      siblings.any fun sibling => (context.tree.decl sibling).has .isDefinition &&
        (context.tree.decl sibling).spelling == name := fun name =>
    any_congr fun sibling member => by
      rw [alike.has_eq (beside sibling member), alike.spelling_eq (beside sibling member)]
  simp only [opaqueClass, upon_tree, upon_options, alike.kind_eq known, alike.has_eq known,
    alike.definition_eq known, alike.access_eq known, alike.anonymous_eq known,
    upon_skipped alike.toAgrees known, alike.spelling_eq known, alike.qualifiedName_eq known,
    defined]

theorem upon_templateParameter :
    (context.upon other names).templateParameter id = context.templateParameter id := by
  have alike := carries.alike
  have type := @DeclTree.Agrees.map_spell_eq context.speller other region alike.toAgrees
    (context.tree.decl id).type fun _ told => alike.closed.typed (Decl.mem_types_of_type told)
  simp only [templateParameter, upon_tree, upon_speller, alike.kind_eq known,
    alike.declType_eq known, alike.spelling_eq known, type]

theorem upon_visitVariable (parent : Parent) :
    (context.upon other names).visitVariable id parent = context.visitVariable id parent := by
  have alike := carries.alike
  unfold visitVariable
  dsimp only
  rw [upon_tree, upon_speller, upon_options, upon_skipped alike.toAgrees known,
    alike.declType_eq known, alike.qualifiedName_eq known, alike.spelling_eq known]
  refine bind_congr fun skipped => if_congr Iff.rfl rfl ?_
  cases told : (context.tree.decl id).type with
  | none => rfl
  | some type =>
      have knownType := alike.closed.typed (Decl.mem_types_of_type told)
      simp only [alike.spell_eq knownType, upon_mentionsSkipped alike.toAgrees known,
        alike.type_eq knownType]

theorem upon_namedInstantiation? :
    (context.upon other names).namedInstantiation? id = context.namedInstantiation? id := by
  have alike := carries.alike
  unfold namedInstantiation?
  dsimp only [upon_tree, upon_speller]
  rw [alike.underlyingType_eq known]
  cases told : (context.tree.decl id).underlyingType with
  | none => rfl
  | some underlying =>
      have knownType := alike.closed.typed (Decl.mem_types_of_underlyingType told)
      dsimp only [Option.bind_eq_bind, Option.bind_some]
      rw [alike.typeDeclaration_eq knownType, alike.spell_eq knownType]
      cases declared : context.tree.typeDeclaration underlying with
      | none => rfl
      | some named =>
          dsimp only [Option.bind_some]
          rw [alike.specializedTemplate_eq (alike.closed.typeDeclaration declared)]
          cases specialized : (context.tree.decl named).specializedTemplate with
          | none => rfl
          | some template =>
              have wholeTemplate := alike.closed.specializes specialized
              dsimp only [Option.bind_some]
              rw [alike.isStd_eq (alike.closed.decl wholeTemplate)]

end Known

omit carries in
/-- What a typedef names an instantiation of belongs to the region with all it holds. -/
theorem whole_of_namedInstantiation? (closed : region.IsClosed context.tree) {template : DeclId}
    {cppType : String} {args : List String}
    (named : context.namedInstantiation? id = some (template, cppType, args)) :
    region.wholes template := by
  unfold namedInstantiation? at named
  obtain ⟨underlying, -, declared⟩ := Option.bind_eq_some_iff.mp named
  obtain ⟨record, -, specialized⟩ := Option.bind_eq_some_iff.mp declared
  obtain ⟨found, isTemplate, rest⟩ := Option.bind_eq_some_iff.mp specialized
  have same : found = template := by
    dsimp only at rest
    split at rest
    · cases rest
    · obtain ⟨parts, -, made⟩ := Option.bind_eq_some_iff.mp rest
      exact (Prod.mk.inj (Option.some.inj made)).1
  subst same
  exact closed.specializes isTemplate

section Whole

include whole

theorem upon_opaqueClasses :
    (context.upon other names).opaqueClasses id = context.opaqueClasses id := by
  have beside : ∀ child ∈ context.tree.children id, region.decls child := fun _ member =>
    carries.alike.closed.child member
  have classes := @mapM_congr _ _ Gen _ _ (context.tree.children id) _ _ fun child member =>
    upon_opaqueClass carries (beside child member) beside
  unfold opaqueClasses
  dsimp only
  rw [upon_tree, carries.alike.children_eq whole, classes]

theorem upon_visitClassTemplate :
    (context.upon other names).visitClassTemplate id = context.visitClassTemplate id := by
  have alike := carries.alike
  have known := alike.closed.decl whole
  have members : ∀ classType, (context.upon other names).classMembers id classType true =
      context.classMembers id classType true := fun classType =>
    upon_classMembers carries whole classType fun _ _ _ outside => nomatch outside
  have parameters : (other.templateParameters id).map
        (context.upon other names).templateParameter =
      (context.tree.templateParameters id).map context.templateParameter := by
    rw [alike.templateParameters_eq whole]
    exact List.map_congr_left fun param member =>
      upon_templateParameter carries (alike.closed.childOfKind member)
  simp only [visitClassTemplate, upon_tree, upon_skipped alike.toAgrees known,
    upon_exported alike.toAgrees known, alike.qualifiedName_eq known,
    alike.qualifiedDisplayName_eq whole, members, parameters]

theorem upon_enumValues (around : String) :
    (context.upon other names).enumValues id around = context.enumValues id around := by
  unfold enumValues
  dsimp only
  rw [upon_tree, carries.alike.childrenOfKind_eq whole]
  refine List.map_congr_left fun value member => ?_
  rw [carries.alike.spelling_eq (carries.alike.closed.childOfKind member)]

/-- The constants of an enum without a name are named by the scope around it, so it has to stay
there unless it has none. -/
theorem upon_visitEnum (kind : (context.tree.decl id).kind = .enumDecl) (parent : Parent) :
    (context.upon other names).visitEnum id parent = context.visitEnum id parent := by
  have alike := carries.alike
  have known := alike.closed.decl whole
  unfold visitEnum
  dsimp only
  rw [upon_tree, upon_options, alike.anonymous_eq known, upon_skipped alike.toAgrees known,
    alike.qualifiedName_eq known, alike.spelling_eq known]
  cases unnamed : (context.tree.decl id).anonymous with
  | false =>
      rw [if_neg Bool.false_ne_true, if_neg Bool.false_ne_true]
      simp only [upon_enumValues carries whole]
  | true =>
      rw [if_pos rfl, if_pos rfl, upon_enumValues carries whole]
      rcases alike.unnamed known kind unnamed with stays | empty
      · rw [alike.parentName_eq stays]
      · simp only [enumValues, empty, List.map_nil]

theorem upon_visitOperator :
    (context.upon other names).visitOperator id = context.visitOperator id := by
  have agrees : context.speller.tree.Agrees other region := carries.alike.toAgrees
  unfold visitOperator
  rw [upon_speller, agrees.freeOperator?_eq whole]
  cases context.speller.freeOperator? id with
  | none => rfl
  | some operator =>
      dsimp only
      rw [upon_mentionsSkipped carries.alike.toAgrees (agrees.closed.decl whole)]

/-- A function is bound in the same way if the instantiations in its signature spare the class
templates that move. -/
theorem upon_visitFunction (accepted : context.accepts id = true)
    (isFunction : (context.tree.decl id).kind = .functionDecl) (parent : Parent)
    (spares : context.skipRule? id = none → ∀ base ∈ context.signatureBases id,
      context.Spares other .empty base) :
    (context.upon other names).visitFunction id parent = context.visitFunction id parent := by
  have alike := carries.alike
  have known := alike.closed.decl whole
  unfold visitFunction
  rw [upon_skipped alike.toAgrees known]
  refine bind_skipped_congr fun kept => ?_
  rw [upon_exported alike.toAgrees known, upon_tree, alike.spelling_eq known,
    upon_visitOperator carries whole, upon_signature carries whole fun _ => spares kept,
    upon_options, alike.qualifiedName_eq known, upon_methodShape carries whole,
    carries.overloads known accepted (.inr isFunction), upon_speller,
    alike.functionSignature_eq whole, upon_returnsBuffer carries known]

theorem upon_nestedDeclarations : nestedDeclarations other id =
    nestedDeclarations context.tree id := by
  unfold nestedDeclarations
  dsimp only
  rw [carries.alike.children_eq whole]
  refine congrArg₂ _ (congrArg₂ _ ?_ ?_) ?_ <;>
    refine List.filter_congr fun child member => ?_ <;>
    simp only [carries.alike.kind_eq (carries.alike.closed.child member),
      carries.alike.anonymous_eq (carries.alike.closed.child member)]

end Whole

include known in
/-- What a typedef names is bound in the same way if its base spares the class templates that
move. -/
theorem upon_visitTypedef (parent : Parent)
    (spares : context.skipRule? id = none → ∀ base ∈ context.typedefBases id,
      context.Spares other .empty base) :
    (context.upon other names).visitTypedef id parent = context.visitTypedef id parent := by
  have alike := carries.alike
  unfold visitTypedef
  rw [upon_tree, alike.inClassTemplate_eq known]
  refine if_congr Iff.rfl rfl ?_
  rw [upon_skipped alike.toAgrees known]
  refine bind_skipped_congr fun kept => ?_
  have spared := spares kept
  rw [upon_namedInstantiation? carries known]
  cases named : context.namedInstantiation? id with
  | none => rfl
  | some instantiation =>
      obtain ⟨template, cppType, args⟩ := instantiation
      have wholeTemplate := whole_of_namedInstantiation? alike.closed named
      have knownTemplate := alike.closed.decl wholeTemplate
      have agrees : context.speller.tree.Agrees other region := alike.toAgrees
      rw [typedefBases, named] at spared
      have based : (context.upon other names).declaredBase
            ((context.speller.upon other).instantiateBase? template args) =
          context.declaredBase (context.speller.instantiateBase? template args) := by
        rw [agrees.instantiateBase?_eq wholeTemplate]
        refine upon_declaredBase carries (fun wanted derived => ?_) spared
        exact agrees.isInside_of_resolveBase? (Option.mem_toList.mp derived)
      dsimp only
      rw [upon_skipped alike.toAgrees knownTemplate, upon_mentionsSkipped alike.toAgrees known,
        upon_speller, based, upon_builderCall alike.toAgrees knownTemplate, upon_options,
        alike.qualifiedName_eq known, alike.spelling_eq known]

end Visits

/-! ## Scopes and what they hold -/

section Contents

variable {context : UnitContext} {other : DeclTree} {names : List String}
  {region : DeclTree.Region} (carries : context.CarriesOver other names region)
  {visit otherVisit : DeclId → Parent → Gen (List Fragment)} {parent : Parent}
include carries

theorem upon_visitAll {ids : List DeclId} (known : ∀ id ∈ ids, region.decls id)
    (same : ∀ id ∈ ids, context.accepts id = true →
      (otherVisit id parent).SameWhenIdle (visit id parent)) :
    ((context.upon other names).visitAll otherVisit ids parent).SameWhenIdle
      (context.visitAll visit ids parent) := by
  induction ids with
  | nil => exact .of_eq rfl
  | cons id ids ih =>
      obtain ⟨knownHere, knownLater⟩ := List.forall_mem_cons.mp known
      obtain ⟨sameHere, sameLater⟩ := List.forall_mem_cons.mp same
      have later := ih knownLater sameLater
      have accepts := @upon_accepts _ _ names _ carries.alike.toAgrees _ knownHere
      cases accepted : context.accepts id with
      | false =>
          rwa [visitAll_cons_of_not_accepts ids accepted,
            visitAll_cons_of_not_accepts ids (accepts.trans accepted)]
      | true =>
          rw [visitAll_cons ids accepted, visitAll_cons ids (accepts.trans accepted)]
          intro progress nothing
          refine Gen.run_bind_congr (sameHere accepted progress nothing) (funext fun produced => ?_)
          refine Gen.SameWhenIdle.afterTakePending fun waiting => ?_
          exact later.bind (visitAll_staysIdle ids) fun _ => .of_eq rfl

theorem upon_visitNamespace {id : DeclId} (known : region.decls id)
    (contents : ∀ parent,
      ((context.upon other names).visitAll otherVisit (other.children id) parent).SameWhenIdle
        (context.visitAll visit (context.tree.children id) parent)) :
    ((context.upon other names).visitNamespace otherVisit id parent).SameWhenIdle
      (context.visitNamespace visit id parent) := by
  have agrees := carries.alike.toAgrees
  unfold visitNamespace
  dsimp only
  rw [upon_tree, agrees.anonymous_eq known, agrees.has_eq known, upon_skipped agrees known,
    upon_openNamespace agrees known, upon_moduleIdentifier agrees known]
  split
  · exact .of_eq rfl
  · split
    · exact contents parent
    · have quiet := context.skipped_isQuiet id
      refine Gen.SameWhenIdle.bind (.of_eq rfl) quiet.staysIdle fun skipped => ?_
      split
      · exact .of_eq rfl
      · refine Gen.SameWhenIdle.bind (.of_eq rfl) (openNamespace_staysIdle id) fun opened => ?_
        exact (contents _).bind (visitAll_staysIdle _) fun inside => .of_eq rfl

/-- A class gives the same if its base and the signatures of its members spare the class templates
that move.  What it holds is visited when nothing waits any more. -/
theorem upon_visitClass {id : DeclId} (whole : region.wholes id)
    (contents : ∀ parent, ((context.upon other names).visitAll otherVisit
      (nestedDeclarations context.tree id) parent).SameWhenIdle
        (context.visitAll visit (nestedDeclarations context.tree id) parent))
    (spares : context.skipRule? id = none → ∀ base ∈ context.classBases id,
      context.Spares other .empty base) :
    (context.upon other names).visitClass otherVisit id parent =
      context.visitClass visit id parent := by
  have alike := carries.alike
  have known := alike.closed.decl whole
  have agrees : context.speller.tree.Agrees other region := alike.toAgrees
  unfold visitClass
  dsimp only
  rw [upon_tree, alike.anonymous_eq known, upon_skipped alike.toAgrees known]
  refine if_congr Iff.rfl rfl (bind_skipped_congr fun kept => ?_)
  obtain ⟨baseSpared, membersSpared⟩ := List.forall_mem_append.mp (spares kept)
  have based : (context.upon other names).declaredBase
        ((context.speller.upon other).resolveBase? id [] []) =
      context.declaredBase (context.speller.resolveBase? id [] []) := by
    rw [agrees.resolveBase?_eq whole]
    refine upon_declaredBase carries (fun wanted derived => ?_) baseSpared
    exact agrees.isInside_of_resolveBase? (Option.mem_toList.mp derived)
  have members : ∀ classType, (context.upon other names).classMembers id classType false =
      context.classMembers id classType false := fun classType =>
    upon_classMembers carries whole classType fun child member accepts _ base wanted =>
      membersSpared base (List.mem_flatMap.mpr
        ⟨child, List.mem_filter.mpr ⟨member, accepts⟩, wanted⟩)
  rw [upon_exported alike.toAgrees known, upon_speller, upon_options, based,
    alike.qualifiedName_eq known, alike.spelling_eq known, upon_opaqueClasses carries whole,
    members, upon_nestedDeclarations carries whole]
  refine bind_congr fun exported => if_congr Iff.rfl rfl ?_
  refine bind_congr fun bound => if_congr Iff.rfl ?_ rfl
  refine bind_congr fun base => bind_congr fun opaqueClasses => bind_congr fun made => ?_
  refine Gen.SameWhenIdle.afterTakePending fun waiting => ?_
  exact (contents _).bind (visitAll_staysIdle _) fun nested => .of_eq rfl

/-- A visit gives the same if those of what the declaration holds do. -/
theorem upon_visitTo_succ {depth more : Nat} {id : DeclId} (known : region.decls id)
    (accepted : context.accepts id = true)
    (contents : ∀ parent, ((context.upon other names).visitAll
        ((context.upon other names).visitTo more) (other.children id) parent).SameWhenIdle
      (context.visitAll (context.visitTo depth) (context.tree.children id) parent))
    (nested : region.wholes id → ∀ parent, ((context.upon other names).visitAll
        ((context.upon other names).visitTo more) (nestedDeclarations context.tree id)
          parent).SameWhenIdle
      (context.visitAll (context.visitTo depth) (nestedDeclarations context.tree id) parent))
    (spares : context.skipRule? id = none → ∀ base ∈ context.visitBases id,
      context.Spares other .empty base) :
    ((context.upon other names).visitTo (more + 1) id parent).SameWhenIdle
      (context.visitTo (depth + 1) id parent) := by
  have alike := carries.alike
  have whole : ∀ {kind}, (context.tree.decl id).kind = kind →
      kind ≠ .namespaceDecl ∧ kind ≠ .unitRoot → region.wholes id :=
    alike.closed.whole_of_kind known
  have own : ∀ bases, context.visitBases id = bases → context.skipRule? id = none →
      ∀ base ∈ bases, context.Spares other .empty base := by
    rintro _ rfl
    exact spares
  unfold visitTo
  rw [upon_tree, alike.kind_eq known]
  split
  case h_1 => exact upon_visitNamespace carries known contents
  case h_2 => exact contents parent
  case h_3 kind =>
    have inside := whole kind (by decide)
    exact .of_eq (upon_visitClass carries inside (nested inside) (own _ (by rw [visitBases, kind])))
  case h_4 kind =>
    have inside := whole kind (by decide)
    exact .of_eq (upon_visitClass carries inside (nested inside) (own _ (by rw [visitBases, kind])))
  case h_5 kind => exact .of_eq (by rw [upon_visitClassTemplate carries (whole kind (by decide))])
  case h_6 kind => exact .of_eq (upon_visitEnum carries (whole kind (by decide)) kind parent)
  case h_7 kind =>
    exact .of_eq (upon_visitFunction carries (whole kind (by decide)) accepted kind parent
      (own _ (by rw [visitBases, kind])))
  case h_8 => exact .of_eq (upon_visitVariable carries known parent)
  case h_9 kind =>
    exact .of_eq (upon_visitTypedef carries known parent (own _ (by rw [visitBases, kind])))
  case h_10 kind =>
    exact .of_eq (upon_visitTypedef carries known parent (own _ (by rw [visitBases, kind])))
  case h_11 => exact .of_eq rfl

end Contents

end UnitContext

end Bindery
