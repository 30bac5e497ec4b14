import Bindery.Binding.Traversal
import Bindery.Proofs.Binding.Run

/-!
# Computations put together

What is made from signatures and from the members of a class is put together from few operations.  A
property that sequences inherit from their parts, and that these operations have, holds of all of it
as soon as it holds of the instantiations that the signatures ask for.
-/

set_option autoImplicit false

namespace Bindery

namespace Gen

/-- A property of computations that sequences inherit from their parts, and that what only reports
or notes the traits of an iterator has. -/
structure IsInherited (holds : ∀ {α : Type}, Gen α → Prop) : Prop where
  pure : ∀ {α : Type} (value : α), holds (Pure.pure value : Gen α)
  bind : ∀ {α β : Type} {first : Gen α} {rest : α → Gen β}, holds first →
    (∀ value, holds (rest value)) → holds (first >>= rest)
  report : ∀ event, holds (Gen.report event)
  addTraits : ∀ traits, holds (Gen.change (·.addTraits traits))

namespace IsInherited

variable {holds : ∀ {α : Type}, Gen α → Prop} (rules : IsInherited holds)
include rules

section

variable {α β : Type}

theorem mapM {step : α → Gen β} {values : List α} (each : ∀ value ∈ values, holds (step value)) :
    holds (values.mapM step) := by
  induction values with
  | nil =>
      rw [List.mapM_nil]
      exact rules.pure []
  | cons value rest ih =>
      have others := ih fun other member => each other (List.mem_cons_of_mem _ member)
      rw [List.mapM_cons]
      exact rules.bind (each value List.mem_cons_self) fun _ =>
        rules.bind others fun _ => rules.pure _

theorem forM {step : α → Gen PUnit} {values : List α}
    (each : ∀ value ∈ values, holds (step value)) : holds (values.forM step) := by
  induction values with
  | nil => exact rules.pure _
  | cons value rest ih =>
      exact rules.bind (each value List.mem_cons_self) fun _ =>
        ih fun other member => each other (List.mem_cons_of_mem _ member)

theorem forIn {step : α → β → Gen (ForInStep β)} (each : ∀ value state, holds (step value state))
    (values : List α) (state : β) : holds (ForIn.forIn values state step) := by
  induction values generalizing state with
  | nil =>
      rw [List.forIn_nil]
      exact rules.pure state
  | cons value rest ih =>
      rw [List.forIn_cons]
      refine rules.bind (each value state) fun next => ?_
      cases next with
      | done result => exact rules.pure result
      | yield result => exact ih result

end

variable (context : UnitContext)

theorem skipped (id : DeclId) : holds (context.skipped id) := by
  unfold UnitContext.skipped
  split
  · exact rules.bind (rules.report _) fun _ => rules.pure true
  · exact rules.pure false

theorem mentionsSkipped (id : DeclId) (spellings : List String) :
    holds (context.mentionsSkipped id spellings) := by
  unfold UnitContext.mentionsSkipped
  split
  · exact rules.bind (rules.report _) fun _ => rules.pure true
  · exact rules.pure false

theorem exported (id : DeclId) : holds (context.exported id) := by
  unfold UnitContext.exported
  split
  · exact rules.pure true
  · exact rules.bind (rules.report _) fun _ => rules.pure false

theorem fieldMember (id : DeclId) (classType : String) :
    holds (context.fieldMember id classType) := by
  unfold UnitContext.fieldMember
  dsimp only
  split
  · exact rules.pure []
  · refine rules.bind (rules.skipped context id) fun skipped => ?_
    split
    · exact rules.pure []
    · split
      · exact rules.pure []
      · refine rules.bind (rules.mentionsSkipped context _ _) fun mentions => ?_
        split <;> exact rules.pure _

theorem staticMember (id : DeclId) (classType : String) :
    holds (context.staticMember id classType) := by
  unfold UnitContext.staticMember
  refine rules.bind (rules.skipped context id) fun skipped => ?_
  split
  · exact rules.pure []
  · dsimp only
    split
    · exact rules.pure []
    · split <;> exact rules.pure _

theorem visitVariable (id : DeclId) (parent : Parent) :
    holds (context.visitVariable id parent) := by
  unfold UnitContext.visitVariable
  refine rules.bind (rules.skipped context id) fun skipped => ?_
  split
  · exact rules.pure []
  · dsimp only
    split
    · exact rules.pure []
    · refine rules.bind (rules.mentionsSkipped context _ _) fun mentions => ?_
      split
      · exact rules.pure []
      · split <;> exact rules.pure _

theorem visitOperator (push : ∀ operator, holds (Gen.change (·.pushOperator operator)))
    (id : DeclId) : holds (context.visitOperator id) := by
  unfold UnitContext.visitOperator
  split
  · refine rules.bind (rules.mentionsSkipped context _ _) fun mentions => ?_
    split
    · exact push _
    · exact rules.pure _
  · exact rules.pure _

/-! ## Signatures and what has them -/

variable {context}

/-- Inside a template a signature asks for nothing. -/
theorem signature {function : DeclId} {inTemplate : Bool}
    (asked : inTemplate = false → ∀ signature, context.readSignature function = .ok signature →
      ∀ type ∈ signature.typeIds, holds (context.ensureInstantiation type)) :
    holds (context.signature function inTemplate) := by
  unfold UnitContext.signature
  split
  case h_1 =>
    dsimp only
    split
    · exact rules.bind (rules.report _) fun _ => rules.pure none
    · exact rules.pure none
  case h_2 signature readable =>
    dsimp only
    refine rules.bind (rules.mentionsSkipped context _ _) fun mentions => ?_
    split
    · exact rules.pure none
    · split
      case isFalse.isTrue outside =>
        have each := asked (by simpa using outside) signature readable
        exact rules.bind (rules.forM each) fun _ => rules.pure _
      case isFalse.isFalse => exact rules.pure _

section

variable {id : DeclId} {classType : String} {inTemplate : Bool}
  (signature : holds (context.signature id inTemplate))
include signature

theorem constructorMember : holds (context.constructorMember id inTemplate) := by
  unfold UnitContext.constructorMember
  split
  · exact rules.pure []
  · exact rules.bind signature fun _ => rules.pure _

theorem methodMember : holds (context.methodMember id classType inTemplate) := by
  unfold UnitContext.methodMember
  refine rules.bind (rules.skipped context id) fun skipped => ?_
  split
  · exact rules.pure []
  · split
    · exact rules.pure []
    · refine rules.bind signature fun signature => ?_
      split <;> exact rules.pure _

theorem conversionMember : holds (context.conversionMember id classType inTemplate) := by
  unfold UnitContext.conversionMember
  refine rules.bind (rules.skipped context id) fun skipped => ?_
  split
  · exact rules.pure []
  · split
    · exact rules.pure []
    · exact rules.bind signature fun _ => rules.pure _

end

theorem childMembers {classType : String} {isAbstract inTemplate : Bool} {child : DeclId}
    (signature : context.accepts child = true → holds (context.signature child inTemplate)) :
    holds (context.childMembers classType isAbstract inTemplate child) := by
  unfold UnitContext.childMembers
  dsimp only
  split
  case isTrue => exact rules.pure []
  case isFalse refused =>
    have known := signature (by simpa using refused)
    split
    · split
      · exact rules.pure []
      · exact rules.constructorMember known
    · split
      · exact rules.pure []
      · exact rules.methodMember known
    · exact rules.conversionMember known
    · exact rules.fieldMember context child classType
    · exact rules.staticMember context child classType
    · exact rules.pure _
    · exact rules.pure []

theorem classMembers {id : DeclId} {classType : String} {inTemplate : Bool}
    (signature : ∀ child ∈ context.tree.children id, context.accepts child = true →
      holds (context.signature child inTemplate)) :
    holds (context.classMembers id classType inTemplate) := by
  unfold UnitContext.classMembers
  refine rules.bind (rules.mapM fun child member => ?_) fun declared => ?_
  · exact rules.childMembers (signature child member)
  · refine rules.bind (rules.forIn (fun traits state => ?_) _ _) fun _ => rules.pure _
    exact rules.bind (rules.addTraits traits) fun _ => rules.pure _

theorem visitFunction {id : DeclId} {parent : Parent}
    (push : ∀ operator, holds (Gen.change (·.pushOperator operator)))
    (signature : context.skipRule? id = none → holds (context.signature id false)) :
    holds (context.visitFunction id parent) := by
  unfold UnitContext.visitFunction UnitContext.skipped
  split
  case h_1 found =>
    rw [bind_assoc]
    exact rules.bind (rules.report _) fun _ => rules.pure []
  case h_2 kept =>
    rw [pure_bind]
    refine rules.bind (rules.exported context id) fun exported => ?_
    split
    · exact rules.pure []
    · split
      · exact rules.bind (rules.visitOperator context push id) fun _ => rules.pure []
      · refine rules.bind (signature kept) fun signature => ?_
        split <;> exact rules.pure _

theorem visitClassTemplate {id : DeclId}
    (members : ∀ classType, holds (context.classMembers id classType true))
    (adds : ∀ template builder, holds (Gen.change (·.addBuilder template builder))) :
    holds (context.visitClassTemplate id) := by
  unfold UnitContext.visitClassTemplate
  refine rules.bind (rules.skipped context id) fun skipped => ?_
  split
  · exact rules.pure _
  · refine rules.bind (rules.exported context id) fun exported => ?_
    split
    · refine rules.bind (members _) fun made => ?_
      dsimp only
      split
      · exact adds _ _
      · exact rules.pure _
    · exact rules.pure _

/-! ## What binds a type -/

section

variable {id : DeclId} (register : ∀ identifier cppType, holds (Gen.register identifier cppType))
include register

theorem visitEnum {parent : Parent} : holds (context.visitEnum id parent) := by
  unfold UnitContext.visitEnum
  dsimp only
  split
  · exact rules.pure _
  · refine rules.bind (rules.skipped context id) fun skipped => ?_
    split
    · exact rules.pure []
    · refine rules.bind (register _ _) fun bound => ?_
      split <;> exact rules.pure _

theorem opaqueClasses : holds (context.opaqueClasses id) := by
  unfold UnitContext.opaqueClasses
  refine rules.bind (rules.mapM fun child _ => ?_) fun _ => rules.pure _
  unfold UnitContext.opaqueClass
  dsimp only
  split
  · exact rules.pure none
  · refine rules.bind (rules.skipped context child) fun skipped => ?_
    split
    · exact rules.pure none
    · split
      · exact rules.pure none
      · refine rules.bind (register _ _) fun bound => ?_
        split <;> exact rules.pure _

/-- A typedef that is skipped needs no base. -/
theorem visitTypedef {parent : Parent} (unit : holds Gen.unit)
    (base : context.skipRule? id = none → ∀ template cppType args,
      context.namedInstantiation? id = some (template, cppType, args) →
        holds (context.declaredBase (context.speller.instantiateBase? template args)))
    (builder : ∀ template args, holds (context.builderCall template args)) :
    holds (context.visitTypedef id parent) := by
  unfold UnitContext.visitTypedef UnitContext.skipped
  split
  · exact rules.pure []
  · split
    case h_1 found =>
      rw [bind_assoc]
      exact rules.bind (rules.report _) fun _ => rules.pure []
    case h_2 kept =>
      rw [pure_bind, if_neg Bool.false_ne_true]
      split
      case h_1 => exact rules.pure []
      case h_2 template cppType args named =>
        refine rules.bind (rules.skipped context template) fun skipped => ?_
        split
        · exact rules.pure []
        · refine rules.bind (rules.mentionsSkipped context _ _) fun mentions => ?_
          split
          · exact rules.pure []
          · refine rules.bind unit fun state => ?_
            split
            · exact rules.pure []
            · refine rules.bind (register _ _) fun bound => ?_
              split
              · refine rules.bind (base kept _ _ _ named) fun base => ?_
                exact rules.bind (builder _ _) fun _ => rules.pure _
              · exact rules.pure []

end

end IsInherited

/-! ## Answers -/

/-- Whatever it starts from, what a computation answers is as described. -/
def Answers {α : Type} (step : Gen α) (holds : α → Prop) : Prop :=
  ∀ before value after, step.run before = some (value, after) → holds value

namespace Answers

variable {α β : Type}

theorem pure {value : α} {holds : α → Prop} (known : holds value) :
    Answers (Pure.pure value) holds := by
  intro before result after run
  obtain ⟨rfl, -⟩ := run_pure_eq_some run
  exact known

theorem bind {first : Gen α} {rest : α → Gen β} {middle : α → Prop} {holds : β → Prop}
    (answersFirst : first.Answers middle)
    (answersRest : ∀ value, middle value → (rest value).Answers holds) :
    (first >>= rest).Answers holds := by
  intro before result after run
  obtain ⟨value, between, firstRun, restRun⟩ := run_bind_eq_some run
  exact answersRest value (answersFirst _ _ _ firstRun) _ _ _ restRun

theorem anything (step : Gen α) : step.Answers fun _ => True :=
  fun _ _ _ _ => trivial

theorem andThen {first : Gen α} {rest : α → Gen β} {holds : β → Prop}
    (answersRest : ∀ value, (rest value).Answers holds) : (first >>= rest).Answers holds :=
  bind (anything first) fun value _ => answersRest value

theorem mapM {step : α → Gen β} {holds : α → β → Prop}
    (answers : ∀ value, (step value).Answers (holds value)) (values : List α) :
    (values.mapM step).Answers fun results => List.Forall₂ holds values results := by
  induction values with
  | nil =>
      rw [List.mapM_nil]
      exact .pure .nil
  | cons value rest ih =>
      rw [List.mapM_cons]
      exact .bind (answers value) fun result known => .bind ih fun others found =>
        .pure (.cons known found)

end Answers

end Gen

namespace UnitContext

variable (context : UnitContext)

theorem skipped_answers (id : DeclId) :
    (context.skipped id).Answers fun skipped => skipped = (context.skipRule? id).isSome := by
  intro before value after run
  unfold skipped at run
  split at run
  case h_1 found looked =>
    cases run
    rw [looked]
    rfl
  case h_2 unlisted =>
    cases run
    rw [unlisted]
    rfl

theorem mentionsSkipped_answers (id : DeclId) (spellings : List String) :
    (context.mentionsSkipped id spellings).Answers fun mentions =>
      mentions = (context.skippedMention? spellings).isSome := by
  intro before value after run
  unfold mentionsSkipped at run
  split at run
  case h_1 spelling symbol mentioned =>
    cases run
    rw [mentioned]
    rfl
  case h_2 unmentioned =>
    cases run
    rw [unmentioned]
    rfl

theorem skippedMention?_isSome_iff (spellings : List String) :
    (context.skippedMention? spellings).isSome ↔
      ∃ spelling ∈ spellings, (context.options.skip.mentionedIn spelling).isSome := by
  simp [skippedMention?, List.findSome?_isSome_iff]

end UnitContext

end Bindery
