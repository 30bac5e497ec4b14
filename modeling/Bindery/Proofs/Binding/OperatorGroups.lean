import Bindery.Proofs.Binding.OperatorQueue
import Bindery.Proofs.Binding.Provenance
import Bindery.Proofs.Binding.Sequence
import Bindery.Proofs.Binding.VisitOrder
import Bindery.Proofs.Text.Beginnings

/-!
# Groups of free operators

The traversal comes to the functions outside classes in some order, and each of them that is a free
operator and passes the filters waits for its class.  At the end of the unit the operators are
grouped by class, and only then the identifiers of the classes are looked up.  So it does not matter
whether a class is bound before its operators or after them.
-/

set_option autoImplicit false

namespace Bindery

/-- The operators of a group, each with the class that the group is about. -/
def OperatorGroup.attached (group : OperatorGroup) : List FreeOperator :=
  group.operators.map (FreeOperator.mk group.cppType)

/-! ## What a visit pushes -/

/-- A computation that adds the given operators to those that wait, and no others. -/
def Gen.Pushes {α : Type} (step : Gen α) (operators : List FreeOperator) : Prop :=
  ∀ before value after, step.run before = some (value, after) →
    after.unit.operators = before.unit.operators.pushAll operators

namespace Gen.Pushes

variable {α β : Type}

theorem of_same {step : Gen α}
    (same : ∀ before value after, step.run before = some (value, after) →
      after.unit.operators = before.unit.operators) : step.Pushes [] :=
  same

theorem change {update : UnitState → UnitState}
    (same : ∀ unit : UnitState, (update unit).operators = unit.operators) :
    (Gen.change update).Pushes [] := by
  intro before value after run
  cases run
  exact same before.unit

theorem bind {first : Gen α} {rest : α → Gen β} {operators more : List FreeOperator}
    (pushesFirst : first.Pushes operators) (pushesRest : ∀ value, (rest value).Pushes more) :
    (first >>= rest).Pushes (operators ++ more) := by
  intro before result after run
  obtain ⟨value, between, firstRun, restRun⟩ := run_bind_eq_some run
  rw [pushesRest value _ _ _ restRun, pushesFirst _ _ _ firstRun, OperatorQueue.pushAll_append]

theorem bindAnswer {first : Gen α} {rest : α → Gen β} {answer : α} {operators : List FreeOperator}
    (silent : first.Pushes []) (answers : first.Answers fun value => value = answer)
    (pushes : (rest answer).Pushes operators) : (first >>= rest).Pushes operators := by
  intro before result after run
  obtain ⟨value, between, firstRun, restRun⟩ := run_bind_eq_some run
  rw [answers _ _ _ firstRun] at restRun
  have same : between.unit.operators = before.unit.operators := silent _ _ _ firstRun
  rw [pushes _ _ _ restRun, same]

theorem isCarried : IsCarried (Pushes · []) where
  pure value := of_same fun before result after run => by
    cases run
    rfl
  bind pushesFirst pushesRest := bind pushesFirst pushesRest
  report event := of_same fun before value after run => by
    cases run
    rfl
  addTraits traits := by
    apply change
    intro unit
    unfold UnitState.addTraits
    split <;> rfl
  failure := by
    intro α before value after run
    cases run
  unit := of_same fun before value after run => by
    cases run
    rfl
  register identifier cppType := by
    intro before value after run
    obtain ⟨unit, -, registered, rfl⟩ | ⟨-, -, rfl⟩ := run_register_eq_some run
    · obtain ⟨-, -, rfl⟩ := UnitState.register?_eq_some registered
      rfl
    · rfl
  openModule _ _ := change fun _ => rfl
  markGenerated _ := change fun _ => rfl
  includeBuilders path := by
    apply change
    intro unit
    unfold UnitState.includeBuilders
    split <;> rfl
  enqueue _ := change fun _ => rfl

theorem takePending : Gen.takePending.Pushes [] := by
  intro before waiting after run
  rw [run_takePending] at run
  cases Option.some.inj run
  rfl

end Gen.Pushes

theorem operatorSymbol?_eq_none {name : String}
    (plain : Text.startsWith "operator" name = false) : operatorSymbol? name = none := by
  rw [operatorSymbol?, Text.dropPrefix?_eq_none plain]
  rfl

theorem Speller.freeOperator?_eq_none {speller : Speller} {function : DeclId}
    (plain : Text.startsWith "operator" (speller.tree.decl function).spelling = false) :
    speller.freeOperator? function = none := by
  rw [Speller.freeOperator?, operatorSymbol?_eq_none plain]
  rfl

namespace UnitContext

/-- The free operator as which a function is attached to a class: none if it is no free operator, if
a rule skips it, if it fails the test for export or if the class mentions a skipped symbol. -/
def attachedOperator? (context : UnitContext) (id : DeclId) : Option FreeOperator :=
  if (context.tree.decl id).kind = .functionDecl ∧ context.skipRule? id = none ∧
      context.isExported id = true then
    (context.speller.freeOperator? id).filter fun operator =>
      (context.skippedMention? [operator.target]).isNone
  else
    none

section

variable {context : UnitContext} {id : DeclId}

theorem attachedOperator?_eq_none_of_kind (other : (context.tree.decl id).kind ≠ .functionDecl) :
    context.attachedOperator? id = none :=
  if_neg fun passes => other passes.1

theorem visitOperator_pushes (isFunction : (context.tree.decl id).kind = .functionDecl)
    (kept : context.skipRule? id = none) (exported : context.isExported id = true) :
    (context.visitOperator id).Pushes (context.attachedOperator? id).toList := by
  have rules := Gen.Pushes.isCarried
  unfold visitOperator attachedOperator?
  rw [if_pos ⟨isFunction, kept, exported⟩]
  cases found : context.speller.freeOperator? id with
  | none => exact rules.pure _
  | some operator =>
      refine .bindAnswer (rules.mentionsSkipped context id _)
        (context.mentionsSkipped_answers id _) ?_
      cases mention : context.skippedMention? [operator.target] with
      | some mentioned =>
          simpa [Option.filter, mention] using rules.pure ()
      | none =>
          intro before value after run
          simp only [Option.isSome_none, Bool.not_false, if_true] at run
          cases run
          simp [Option.filter, mention, UnitState.pushOperator, OperatorQueue.pushAll]

theorem visitFunction_pushes {parent : Parent}
    (isFunction : (context.tree.decl id).kind = .functionDecl) :
    (context.visitFunction id parent).Pushes (context.attachedOperator? id).toList := by
  have rules := Gen.Pushes.isCarried
  have silent {step : Gen (List Fragment)} (pushes : step.Pushes [])
      (nothing : context.attachedOperator? id = none) :
      step.Pushes (context.attachedOperator? id).toList := by
    rwa [nothing]
  unfold visitFunction
  refine .bindAnswer (rules.skipped context id) (context.skipped_answers id) ?_
  cases kept : context.skipRule? id with
  | some found => exact silent (rules.pure []) (by simp [attachedOperator?, kept])
  | none =>
      simp only [Option.isSome_none, Bool.false_eq_true, if_false]
      refine .bindAnswer (rules.exported context id) (exported_answers id) ?_
      cases exported : context.isExported id with
      | false => exact silent (rules.pure []) (by simp [attachedOperator?, exported])
      | true =>
          simp only [Bool.not_true, Bool.false_eq_true, if_false]
          by_cases named : Text.startsWith "operator" (context.tree.decl id).spelling = true
          · rw [if_pos named, ← List.append_nil (context.attachedOperator? id).toList]
            exact .bind (visitOperator_pushes isFunction kept exported) fun _ => rules.pure []
          · rw [if_neg named]
            have plain : context.speller.freeOperator? id = none :=
              Speller.freeOperator?_eq_none (Bool.eq_false_iff.mpr named)
            refine silent ?_ (by simp [attachedOperator?, plain])
            refine rules.bind (rules.anySignature context id false) fun signature => ?_
            split <;> exact rules.pure _

theorem visitClassTemplate_pushes : (context.visitClassTemplate id).Pushes [] := by
  have rules := Gen.Pushes.isCarried
  exact rules.visitClassTemplate (fun _ => rules.members context _ _ _)
    fun _ _ => .change fun _ => rfl

/-- A leg adds the operator that its declaration is attached as, if it is. -/
theorem IsLeg.operators {leg : Leg} (isLeg : context.IsLeg leg) :
    leg.between.unit.operators =
      leg.before.unit.operators.pushAll (context.attachedOperator? leg.id).toList := by
  have rules := Gen.Pushes.isCarried
  by_cases isFunction : (context.tree.decl leg.id).kind = .functionDecl
  · have run := isLeg.run
    rw [stopAt, isFunction] at run
    obtain ⟨produced, between, stepRun, run⟩ := Gen.run_bind_eq_some run
    obtain ⟨-, same⟩ := Gen.run_pure_eq_some run
    rw [← same] at stepRun
    exact visitFunction_pushes isFunction _ _ _ stepRun
  · rw [attachedOperator?_eq_none_of_kind isFunction]
    exact rules.stopAt .takePending (fun _ => visitClassTemplate_pushes)
      (fun same => absurd same isFunction) _ _ _ isLeg.run

theorem Walks.operators {ids : List DeclId} {parent : Parent} {before after : Progress}
    {legs : List Leg} (walks : context.Walks ids parent before legs after) :
    after.unit.operators = before.unit.operators.pushAll
      ((legs.map (·.id)).filterMap context.attachedOperator?) := by
  induction walks with
  | nil => rfl
  | skip _ _ ih => exact ih
  | @leg leg _ inner later _ _ isLeg _ _ ihInside ihRest =>
      have own := isLeg.operators
      have inside : leg.between.release.unit.operators = leg.between.unit.operators := rfl
      rw [ihRest, ihInside, inside, own, ← OperatorQueue.pushAll_append,
        ← OperatorQueue.pushAll_append]
      congr 1
      cases attached : context.attachedOperator? leg.id <;> simp [attached]

/-! ## What the traversal comes to -/

/-- The declarations that the traversal comes to outside all classes. -/
inductive IsReached (context : UnitContext) : DeclId → Prop
  | top {id : DeclId} (child : id ∈ context.tree.children DeclTree.root)
      (accepted : context.accepts id = true) : IsReached context id
  | inside {outer id : DeclId} (reached : IsReached context outer)
      (isScope : (context.tree.decl outer).kind = .namespaceDecl ∨
        (context.tree.decl outer).kind = .linkageSpec)
      (entered : context.IsEntered outer) (child : id ∈ context.tree.children outer)
      (accepted : context.accepts id = true) : IsReached context id

/-- Whether a declaration can stand in a class and be visited there. -/
def IsNested (context : UnitContext) (id : DeclId) : Prop :=
  (context.tree.decl id).kind ≠ .namespaceDecl ∧ (context.tree.decl id).kind ≠ .linkageSpec ∧
    (context.tree.decl id).kind ≠ .functionDecl

theorem isNested_of_mem_nestedDeclarations {outer : DeclId}
    (member : id ∈ nestedDeclarations context.tree outer) : context.IsNested id := by
  unfold nestedDeclarations at member
  simp only [List.mem_append, List.mem_filter, Bool.or_eq_true, Bool.and_eq_true,
    beq_iff_eq] at member
  rcases member with (⟨-, nested⟩ | ⟨-, isEnum, -⟩) | ⟨-, named⟩
  · refine ⟨?_, ?_, ?_⟩ <;> intro kind <;> simp [kind, DeclKind.isRecord] at nested
  · refine ⟨?_, ?_, ?_⟩ <;> simp [isEnum]
  · refine ⟨?_, ?_, ?_⟩ <;> intro kind <;> simp [kind, DeclKind.isTypedef] at named

section

variable {ids : List DeclId} {parent : Parent} {before after : Progress} {legs : List Leg}
  (walks : context.Walks ids parent before legs after)
include walks

/-- A leg takes place outside classes, unless its declaration stands in one. -/
theorem Walks.isReached
    (reached : ∀ id ∈ ids, context.accepts id = true → context.IsReached id ∨ context.IsNested id) :
    ∀ leg ∈ legs, context.IsReached leg.id ∨ context.IsNested leg.id := by
  induction walks with
  | nil => exact nofun
  | skip _ _ ih => exact ih (List.forall_mem_cons.mp reached).2
  | @leg leg _ _ _ _ _ isLeg _ _ ihInside ihRest =>
      obtain ⟨here, others⟩ := List.forall_mem_cons.mp reached
      have own := here isLeg.accepted
      refine List.forall_mem_append.mpr
        ⟨List.forall_mem_cons.mpr ⟨own, ihInside fun id member accepted => ?_⟩, ihRest others⟩
      obtain ⟨-, outcome⟩ := isLeg.outcome
      cases outcome with
      | passed _ inside =>
          rw [inside] at member
          cases member
      | opened entered isScope _ inside =>
          rw [inside] at member
          refine .inl (.inside (own.resolve_right fun nested => ?_) isScope entered member accepted)
          exact isScope.elim nested.1 nested.2.1
      | bound _ _ _ _ _ inside =>
          -- The functions in a class are its members; the traversal does not visit them.
          rw [inside] at member
          exact .inr (isNested_of_mem_nestedDeclarations member)
      | taken _ _ _ _ inside =>
          rw [inside] at member
          cases member

end

theorem IsReached.exists_leg {before after : Progress} {legs : List Leg} {parent : Parent}
    (walks : context.Walks (context.tree.children DeclTree.root) parent before legs after)
    (reached : context.IsReached id) : ∃ leg ∈ legs, leg.id = id := by
  induction reached with
  | top child accepted => exact walks.exists_leg.1 _ child accepted
  | @inside outer id _ isScope entered child accepted ih =>
      obtain ⟨leg, member, rfl⟩ := ih
      refine walks.exists_leg.2 leg member id ?_ accepted
      obtain ⟨-, outcome⟩ := (walks.isLeg leg member).outcome
      cases outcome with
      | passed closed => exact absurd entered closed
      | opened _ _ _ inside => rwa [inside]
      | bound _ _ isClass | taken _ isClass =>
          rcases isScope with kind | kind <;> rw [kind] at isClass <;> simp at isClass

/-- Whether some functions are those outside classes that the traversal comes to, in its order. -/
structure Discovers (context : UnitContext) (functions : List DeclId) : Prop where
  inOrder : functions.Sublist context.visitOrder
  mem_iff : ∀ id, id ∈ functions ↔
    (context.tree.decl id).kind = .functionDecl ∧ context.IsReached id
  once : context.tree.IsForest → functions.Nodup

/-- The operators of a unit are those of the functions that the traversal comes to. -/
theorem exists_discovers_of_visitUnit {fragments : List Fragment} {progress : Progress}
    (run : context.visitUnit.run ⟨UnitState.empty, []⟩ = some (fragments, progress)) :
    ∃ functions, context.Discovers functions ∧
      progress.unit.operators =
        OperatorQueue.sorted (functions.filterMap context.attachedOperator?) := by
  obtain ⟨legs, walks, -, inOrder⟩ := walks_of_visitUnit run
  have known := walks.isReached fun id member accepted => .inl (.top member accepted)
  let isFunction (id : DeclId) : Bool := (context.tree.decl id).kind = .functionDecl
  have among : ((legs.map (·.id)).filter isFunction).Sublist context.visitOrder :=
    List.filter_sublist.trans inOrder
  refine ⟨(legs.map (·.id)).filter isFunction, ⟨among, fun id => ?_, fun forest => ?_⟩, ?_⟩
  · constructor
    · intro member
      obtain ⟨listed, kind⟩ := List.mem_filter.mp member
      obtain ⟨leg, present, rfl⟩ := List.mem_map.mp listed
      have isFunction := of_decide_eq_true kind
      exact ⟨isFunction, (known leg present).resolve_right fun nested => nested.2.2 isFunction⟩
    · rintro ⟨kind, reached⟩
      obtain ⟨leg, present, rfl⟩ := reached.exists_leg walks
      exact List.mem_filter.mpr ⟨List.mem_map_of_mem present, decide_eq_true kind⟩
  · exact (nodup_visitOrder forest).sublist among
  · rw [walks.operators, List.filterMap_filter]
    refine (OperatorQueue.pushAll_empty _).trans (congrArg _ (List.filterMap_congr fun id _ => ?_))
    by_cases kind : (context.tree.decl id).kind = .functionDecl
    · simp [isFunction, kind]
    · simp [isFunction, kind, attachedOperator?_eq_none_of_kind kind]

end

end UnitContext

/-- How the operators of a unit are grouped, given the operators that were found in their order. -/
structure UnitBindings.GroupsOperators (bindings : UnitBindings) (found : List FreeOperator) :
    Prop where
  /-- The groups stand in the order in which the first operator of each was found. -/
  classes : bindings.operators.map (·.cppType) = OperatorQueue.classesOf found
  distinct : (bindings.operators.map (·.cppType)).Nodup
  inOrder : ∀ group ∈ bindings.operators,
    group.operators = OperatorQueue.ofClass group.cppType found
  complete : (bindings.operators.flatMap OperatorGroup.attached).Perm found

theorem groupsOperators_of_sorted {context : UnitContext} {fragments : List Fragment}
    {state : UnitState} {found : List FreeOperator}
    (sorted : state.operators = OperatorQueue.sorted found) :
    (context.bindings fragments state).GroupsOperators found := by
  have groups : (context.bindings fragments state).operators =
      (OperatorQueue.classesOf found).map fun cppType =>
        ⟨context.boundIdentifier? state cppType, cppType,
          OperatorQueue.ofClass cppType found⟩ := by
    change state.operators.groups _ = _
    rw [sorted, OperatorQueue.groups, OperatorQueue.sorted, List.map_map]
    rfl
  have classes : (context.bindings fragments state).operators.map (·.cppType) =
      OperatorQueue.classesOf found := by
    rw [groups, List.map_map]
    exact List.map_id _
  refine ⟨classes, classes ▸ OperatorQueue.nodup_classesOf found, ?_, ?_⟩
  · rw [groups]
    exact List.forall_mem_map.mpr fun _ _ => rfl
  · rw [groups, List.flatMap_map]
    exact OperatorQueue.perm_classesOf found

/-- Free operators are attached once each, whatever the order.  The functions that the traversal
comes to give the operators of a unit; the groups have different classes, in the order in which the
operators were found, and are a rearrangement of the operators that leaves those of one class in
their order.  A group is attached to the class that the unit has bound by its end, be it before or
after its operators were found, or else to the class of an earlier unit. -/
theorem free_operators_are_attached_once {depth : Nat} {options : BindOptions}
    {index : ProjectIndex} {unit : SourceUnit} {relative : String} {result : UnitResult}
    (run : generateUnit depth options index unit relative = some result) :
    ∃ functions, (UnitContext.ofUnit depth unit options index relative).Discovers functions ∧
      result.bindings.GroupsOperators (functions.filterMap
        (UnitContext.ofUnit depth unit options index relative).attachedOperator?) ∧
      ∃ progress, (UnitContext.ofUnit depth unit options index relative).visitUnit.run
          ⟨UnitState.empty, []⟩ = some (result.bindings.fragments, progress) ∧
        ∀ group ∈ result.bindings.operators,
          group.target = (progress.unit.identifierFor? group.cppType).or
            (index.knownClass? group.cppType) ∧
          progress.unit.identifierFor? group.cppType =
            (Fragment.allBound result.bindings.fragments).lookup group.cppType := by
  obtain ⟨progress, visitRun, made⟩ := bindings_of_generateUnit run
  obtain ⟨functions, discovers, sorted⟩ := UnitContext.exists_discovers_of_visitUnit visitRun
  refine ⟨functions, discovers, ?_, progress, visitRun, fun group member => ⟨?_, ?_⟩⟩
  · rw [made]
    exact groupsOperators_of_sorted sorted
  · rw [made] at member
    obtain ⟨entry, -, rfl⟩ := List.mem_map.mp member
    rfl
  · obtain ⟨sound, bound⟩ := balanced_of_visitUnit visitRun
    exact lookup_eq_of_perm bound.symm sound.types group.cppType

/-- Three operators of two classes, one of them before its class. -/
def comparisonSteps : List TreeBuilder.Step :=
  [.builtin "bool", .function .functionDecl 0 "operator==" 0, .add 0 .classDecl "A",
   .add 0 .classDecl "B", .named 2, .named 3, .param 1 "left" 2, .param 1 "right" 2,
   .function .functionDecl 0 "operator!" 0, .param 6 "value" 4,
   .function .functionDecl 0 "operator!=" 0, .param 8 "left" 2, .param 8 "right" 2]

def comparisonUnit : SourceUnit :=
  .ofSteps comparisonSteps

def comparisonContext : UnitContext :=
  .ofUnit 0 comparisonUnit .plain .empty "unit.hpp"

theorem early_operator_is_attached :
    ∃ result functions, generateUnit 0 .plain .empty comparisonUnit "unit.hpp" = some result ∧
      result.bindings.operators.map (fun group => (group.target, group.operators.map (·.name))) =
        [(some "rb_cA", ["==", "!="]), (some "rb_cB", ["!"])] ∧
      comparisonContext.Discovers functions ∧ functions.Nodup ∧
      result.bindings.GroupsOperators
        (functions.filterMap comparisonContext.attachedOperator?) := by
  have made : (generateUnit 0 .plain .empty comparisonUnit "unit.hpp").map (fun result =>
      result.bindings.operators.map fun group =>
        (group.target, group.operators.map (·.name))) =
      some [(some "rb_cA", ["==", "!="]), (some "rb_cB", ["!"])] := by
    decide +kernel
  obtain ⟨result, run, groups⟩ := Option.map_eq_some_iff.mp made
  obtain ⟨functions, discovers, grouped, -⟩ := free_operators_are_attached_once run
  have fit : TreeBuilder.allFit (.start "/src/unit.hpp") comparisonSteps = true := by
    decide +kernel
  have forest : comparisonUnit.tree.IsForest := TreeBuilder.start_performAll_isForest _ fit
  exact ⟨result, functions, run, groups, discovers, discovers.once forest, grouped⟩

end Bindery
