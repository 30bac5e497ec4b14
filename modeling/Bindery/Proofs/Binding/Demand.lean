import Bindery.Proofs.Binding.Account
import Bindery.Proofs.Binding.Ledger

/-!
# What is made on demand

A base, a parameter or a result may need an instantiation, and that may need modules around it.
Whatever is made so waits for the fragment that needs it.  A property of computations that the
operations have by which this is done is one of everything that a visit does by itself.  One such
property is that nothing known is forgotten and that only modules and instantiations come to wait;
another is that each builder is one of those expected.
-/

set_option autoImplicit false

namespace Bindery

/-- Whether a fragment comes of a declaration alone.  A module or an instantiation may be made
because something needs it. -/
def Fragment.isDeclared : Fragment → Bool
  | module_ _ _ _ => false
  | instantiation _ _ _ _ _ _ => false
  | _ => true

namespace Gen

/-- A property of computations that sequences inherit from their parts, and that the operations have
which bind types, let modules and instantiations wait and note what they need. -/
structure IsCarried (holds : ∀ {α : Type}, Gen α → Prop) : Prop extends IsInherited holds where
  failure : ∀ {α : Type}, holds (failure : Gen α)
  unit : holds Gen.unit
  register : ∀ identifier cppType, holds (Gen.register identifier cppType)
  openModule : ∀ qualified path,
    holds (Gen.change (·.openModule qualified (Name.moduleIdentifier path)))
  markGenerated : ∀ cppType, holds (Gen.change (·.markGenerated cppType))
  includeBuilders : ∀ path, holds (Gen.change (·.includeBuilders path))
  enqueue : ∀ {fragment : Fragment}, fragment.isDeclared = false → holds (Gen.enqueue fragment)

namespace IsCarried

variable {holds : ∀ {α : Type}, Gen α → Prop} (rules : IsCarried holds) (context : UnitContext)
include rules

/-! ## Scopes -/

/-- The module that opens a namespace may wait. -/
theorem bind_openNamespace {α : Type} {id : DeclId} {parent : Parent}
    {rest : Option Fragment → Gen α}
    (after : ∀ opened, (∀ fragment ∈ opened, fragment.isDeclared = false) → holds (rest opened)) :
    holds (context.openNamespace id parent >>= rest) := by
  unfold UnitContext.openNamespace
  rw [bind_assoc]
  refine rules.bind rules.unit fun state => ?_
  dsimp only
  split
  · rw [pure_bind]
    exact after none nofun
  · rw [bind_assoc]
    refine rules.bind (rules.openModule _ _) fun _ => ?_
    rw [pure_bind]
    refine after _ fun fragment member => ?_
    cases Option.some.inj member
    rfl

theorem ensureScopeTo (depth : Nat) (scope : Option DeclId) :
    holds (context.ensureScopeTo depth scope) := by
  induction depth generalizing scope with
  | zero =>
      cases scope with
      | none => exact rules.pure _
      | some id => exact rules.failure
  | succ depth ih =>
      cases scope with
      | none => exact rules.pure _
      | some id =>
          unfold UnitContext.ensureScopeTo
          dsimp only
          split
          · exact rules.pure _
          · refine rules.bind (ih _) fun outer => ?_
            split
            · refine rules.bind_openNamespace context fun opened modules => ?_
              split
              case h_1 fragment _ =>
                exact rules.bind (rules.enqueue (modules _ rfl)) fun _ => rules.pure _
              case h_2 => exact rules.pure _
            · exact rules.pure outer
          iterate 3
            · refine rules.bind rules.unit fun state => ?_
              split
              · exact rules.pure _
              · exact ih _
          · exact ih _

/-! ## Instantiations -/

theorem admitsInstantiation (template : DeclId) (cppType : String) (args : List String) :
    holds (context.admitsInstantiation template cppType args) := by
  unfold UnitContext.admitsInstantiation
  split
  · exact rules.pure false
  · dsimp only
    split
    · exact rules.bind (rules.report _) fun _ => rules.pure false
    · split
      · exact rules.bind (rules.report _) fun _ => rules.pure false
      · exact rules.pure true

theorem builderCall (template : DeclId) (args : List String) :
    holds (context.builderCall template args) := by
  unfold UnitContext.builderCall
  refine rules.bind rules.unit fun state => ?_
  split
  · exact rules.pure _
  · split
    · exact rules.bind (rules.includeBuilders _) fun _ => rules.pure _
    · exact rules.pure none

theorem synthesize (template : DeclId) (cppType : String) (args : List String)
    (base : Option String) : holds (context.synthesize template cppType args base) := by
  unfold UnitContext.synthesize
  refine rules.bind (rules.ensureScopeTo context _ _) fun parent => ?_
  refine rules.bind (rules.register _ _) fun bound => ?_
  split
  · refine rules.bind (rules.builderCall context template args) fun builder => ?_
    exact rules.bind (rules.report _) fun _ => rules.enqueue rfl
  · exact rules.pure _

variable {context}

theorem bindBase {require : DeclId → String → List String → Gen (Option String)}
    (requires : ∀ template cppType args, holds (require template cppType args))
    (base : BaseClass) : holds (context.bindBase require base) := by
  unfold UnitContext.bindBase
  split
  case h_1 => exact requires _ _ _
  case h_2 cppType decl =>
    have answer (excluded : Bool) :
        holds (if excluded || (context.options.skip.mentionedIn cppType).isSome then pure none
          else pure (some cppType) : Gen (Option String)) := by
      split <;> exact rules.pure _
    dsimp only
    split
    · split
      · exact rules.bind (rules.pure true) answer
      · exact rules.bind (rules.skipped context _) answer
    · exact rules.bind (rules.pure false) answer

variable (context)

theorem requireInstantiationTo (depth : Nat) (template : DeclId) (cppType : String)
    (args : List String) : holds (context.requireInstantiationTo depth template cppType args) := by
  induction depth using Nat.strong_induction_on generalizing template cppType args with
  | h depth ih =>
      unfold UnitContext.requireInstantiationTo
      refine rules.bind (rules.admitsInstantiation context _ _ _) fun admitted => ?_
      split
      · exact rules.pure none
      · refine rules.bind rules.unit fun state => ?_
        split
        · exact rules.pure _
        · cases depth with
          | zero => exact rules.failure
          | succ less =>
              refine rules.bind (rules.markGenerated _) fun _ => ?_
              dsimp only
              have finishes (base : Option String) : holds (do
                  context.synthesize template cppType args base
                  return some cppType : Gen (Option String)) :=
                rules.bind (rules.synthesize context _ _ _ _) fun _ => rules.pure _
              split
              · exact rules.bind (rules.bindBase (ih less less.lt_succ_self) _) finishes
              · rw [pure_bind]
                exact finishes none

theorem declaredBase (base : Option BaseClass) : holds (context.declaredBase base) := by
  unfold UnitContext.declaredBase
  split
  · exact rules.bindBase (rules.requireInstantiationTo context _) _
  · exact rules.pure none

theorem ensureInstantiation (type : TypeId) : holds (context.ensureInstantiation type) := by
  unfold UnitContext.ensureInstantiation
  split
  · exact rules.bind (rules.requireInstantiationTo context _ _ _ _) fun _ => rules.pure _
  · exact rules.pure _

/-! ## Visits -/

theorem anySignature (function : DeclId) (inTemplate : Bool) :
    holds (context.signature function inTemplate) :=
  rules.signature fun _ _ _ type _ => rules.ensureInstantiation context type

theorem members (id : DeclId) (classType : String) (inTemplate : Bool) :
    holds (context.classMembers id classType inTemplate) :=
  rules.classMembers fun child _ _ => rules.anySignature context child inTemplate

theorem anyTypedef (id : DeclId) (parent : Parent) : holds (context.visitTypedef id parent) :=
  rules.visitTypedef rules.register rules.unit (fun _ _ _ _ _ => rules.declaredBase context _)
    (rules.builderCall context)

end IsCarried

end Gen

/-! ## Demand -/

/-- Nothing known is forgotten, and no class that is bound. -/
structure UnitState.Retains (before after : UnitState) : Prop where
  growsTo : before.GrowsTo after
  classes : before.classes ⊆ after.classes

namespace UnitState.Retains

theorem of_eq {before after : UnitState} (grows : before.GrowsTo after)
    (bindings : after.bindings = before.bindings) : before.Retains after := by
  refine ⟨grows, fun entry member => ?_⟩
  unfold UnitState.classes at member ⊢
  rwa [bindings]

theorem rfl {state : UnitState} : state.Retains state :=
  .of_eq .rfl (Eq.refl _)

theorem trans {first second third : UnitState} (left : first.Retains second)
    (right : second.Retains third) : first.Retains third :=
  ⟨left.growsTo.trans right.growsTo, fun _ member => right.classes (left.classes member)⟩

theorem openModule (state : UnitState) (qualified path : String) :
    state.Retains (state.openModule qualified (Name.moduleIdentifier path)) :=
  ⟨⟨List.prefix_append _ _, List.prefix_refl _, List.suffix_refl _⟩,
    classes_openModule state qualified path ▸ List.Subset.refl _⟩

theorem of_register {before after : UnitState} {identifier cppType : String}
    (registered : before.register? identifier cppType = some after) : before.Retains after := by
  refine ⟨.of_register registered, fun entry member => ?_⟩
  obtain ⟨-, -, rfl⟩ := register?_eq_some registered
  unfold UnitState.classes at member ⊢
  rw [List.filter_append, List.map_append]
  exact List.mem_append_left _ member

end UnitState.Retains

/-- What happens to a unit while fragments are made: nothing known is forgotten, and what comes to
wait is made on demand. -/
structure UnitState.Gathers (before after : UnitState) : Prop where
  retains : before.Retains after
  pending : ∃ more, after.pending = before.pending ++ more ∧
    ∀ fragment ∈ more, fragment.isDeclared = false

namespace UnitState.Gathers

theorem of_retains {before after : UnitState} (retains : before.Retains after)
    (pending : after.pending = before.pending) : before.Gathers after :=
  ⟨retains, [], by rw [pending, List.append_nil], nofun⟩

theorem rfl {state : UnitState} : state.Gathers state :=
  .of_retains .rfl (Eq.refl _)

theorem trans {first second third : UnitState} (left : first.Gathers second)
    (right : second.Gathers third) : first.Gathers third := by
  obtain ⟨retains, more, pending, onDemand⟩ := left
  obtain ⟨further, last, queue, later⟩ := right
  refine ⟨retains.trans further, more ++ last, ?_, List.forall_mem_append.mpr ⟨onDemand, later⟩⟩
  rw [queue, pending, List.append_assoc]

end UnitState.Gathers

namespace Gen

/-- A computation that forgets nothing and lets wait what is needed. -/
def Gathers {α : Type} (step : Gen α) : Prop :=
  ∀ before value after, step.run before = some (value, after) → before.unit.Gathers after.unit

namespace Gathers

theorem of_isQuiet {α : Type} {step : Gen α} (quiet : step.IsQuiet) : step.Gathers := by
  intro before value after run
  have still := quiet _ _ _ run
  exact .of_retains (.of_eq still.growsTo still.bindings) still.pending

theorem change {update : UnitState → UnitState}
    (retains : ∀ unit : UnitState, unit.Retains (update unit))
    (waits : ∀ unit : UnitState, (update unit).pending = unit.pending) :
    (Gen.change update).Gathers := by
  intro before value after run
  cases run
  exact .of_retains (retains before.unit) (waits before.unit)

theorem isCarried : IsCarried Gathers where
  pure value := of_isQuiet (.pure value)
  bind gathersFirst gathersRest := by
    intro before result after run
    obtain ⟨value, between, firstRun, restRun⟩ := run_bind_eq_some run
    exact (gathersFirst _ _ _ firstRun).trans (gathersRest value _ _ _ restRun)
  report event := of_isQuiet (.report event)
  addTraits traits := of_isQuiet (.addTraits traits)
  failure := by
    intro α before value after run
    cases run
  unit := of_isQuiet .unit
  register identifier cppType := by
    intro before value after run
    obtain ⟨unit, -, registered, rfl⟩ | ⟨-, -, rfl⟩ := run_register_eq_some run
    · refine .of_retains (.of_register registered) ?_
      obtain ⟨-, -, rfl⟩ := UnitState.register?_eq_some registered
      rfl
    · exact .rfl
  openModule qualified path := change (.openModule · qualified path) fun _ => rfl
  markGenerated _ := change (fun _ =>
    .of_eq ⟨List.prefix_refl _, List.prefix_refl _, List.suffix_cons _ _⟩ rfl) fun _ => rfl
  includeBuilders path := of_isQuiet (.includeBuilders path)
  enqueue onDemand := by
    intro before value after run
    cases run
    exact ⟨.of_eq (.of_eq rfl rfl rfl) rfl, [_], rfl, List.forall_mem_singleton.mpr onDemand⟩

end Gathers

/-- A computation that makes no builders but the expected. -/
def Builds {α : Type} (step : Gen α) (expected : Builder → Prop) : Prop :=
  ∀ before value after, step.run before = some (value, after) →
    ∀ builder ∈ after.unit.builders, builder ∈ before.unit.builders ∨ expected builder

namespace Builds

variable {expected : Builder → Prop}

theorem change {update : UnitState → UnitState}
    (builds : ∀ unit : UnitState, ∀ builder ∈ (update unit).builders,
      builder ∈ unit.builders ∨ expected builder) : (Gen.change update).Builds expected := by
  intro before value after run
  cases run
  exact builds before.unit

theorem isCarried : IsCarried (Builds · expected) where
  pure value := by
    intro before result after run builder member
    cases run
    exact .inl member
  bind buildsFirst buildsRest := by
    intro before result after run builder member
    obtain ⟨value, between, firstRun, restRun⟩ := run_bind_eq_some run
    rcases buildsRest value _ _ _ restRun builder member with earlier | made
    · exact buildsFirst _ _ _ firstRun builder earlier
    · exact .inr made
  report event := by
    intro before value after run builder member
    cases run
    exact .inl member
  addTraits traits := by
    refine change fun unit builder member => .inl ?_
    unfold UnitState.addTraits at member
    split at member <;> exact member
  failure := by
    intro α before value after run
    cases run
  unit := by
    intro before value after run builder member
    cases run
    exact .inl member
  register identifier cppType := by
    intro before value after run builder member
    obtain ⟨unit, -, registered, rfl⟩ | ⟨-, -, rfl⟩ := run_register_eq_some run
    · obtain ⟨-, -, rfl⟩ := UnitState.register?_eq_some registered
      exact .inl member
    · exact .inl member
  openModule _ _ := change fun _ _ => .inl
  markGenerated _ := change fun _ _ => .inl
  includeBuilders path := by
    refine change fun unit builder member => .inl ?_
    unfold UnitState.includeBuilders at member
    split at member <;> exact member
  enqueue _ := by
    intro before value after run builder member
    cases run
    exact .inl member

end Builds

end Gen

end Bindery
