import Bindery.Binding.Scope
import Bindery.Binding.Instantiation
import Mathlib.Data.List.Infix

/-!
# Runs of generation steps

A step of generation is a function of the progress so far.  This module opens such functions: what
the operations on the state do to the progress, and how a run of a sequence falls into runs of its
parts.  A run is quiet if it touches neither bindings nor fragments.
-/

set_option autoImplicit false

namespace Bindery

namespace UnitState

/-- The state with one more fragment that waits. -/
def enqueue (state : UnitState) (fragment : Fragment) : UnitState :=
  { state with pending := state.pending ++ [fragment] }

/-- The state in which no fragment waits. -/
def release (state : UnitState) : UnitState :=
  { state with pending := [] }

theorem release_of_pending_eq_nil {state : UnitState} (idle : state.pending = []) :
    state.release = state := by
  cases state
  cases idle
  rfl

theorem release_enqueue {state : UnitState} (idle : state.pending = []) (fragment : Fragment) :
    (state.enqueue fragment).release = state := by
  cases state
  cases idle
  rfl

theorem register?_eq_some {before after : UnitState} {identifier cppType : String}
    (registered : before.register? identifier cppType = some after) :
    before.identifierFor? cppType = none ∧ before.bindings.lookup identifier = none ∧
      after =
        { before with
          byType := before.byType ++ [(cppType, identifier)]
          bindings := before.bindings ++ [(identifier, cppType)] } := by
  unfold register? at registered
  split at registered
  case isTrue => cases registered
  case isFalse free =>
    rw [Bool.or_eq_true, not_or, Bool.not_eq_true, Bool.not_eq_true] at free
    exact ⟨Option.isSome_eq_false_iff.mp free.1 |> Option.isNone_iff_eq_none.mp,
      Option.isSome_eq_false_iff.mp free.2 |> Option.isNone_iff_eq_none.mp,
      (Option.some.inj registered).symm⟩

theorem identifierFor?_of_register {before after : UnitState} {identifier cppType : String}
    (registered : before.register? identifier cppType = some after) :
    after.identifierFor? cppType = some identifier := by
  obtain ⟨unknown, -, rfl⟩ := register?_eq_some registered
  unfold identifierFor? at unknown ⊢
  rw [List.lookup_append, unknown]
  simp

theorem register?_eq_none {state : UnitState} {identifier cppType : String}
    (taken : state.register? identifier cppType = none) :
    (∃ bound, state.identifierFor? cppType = some bound) ∨
      ∃ owner, state.collision? identifier cppType = some owner := by
  unfold register? at taken
  cases known : state.identifierFor? cppType with
  | some bound => exact .inl ⟨bound, rfl⟩
  | none =>
      cases owned : state.bindings.lookup identifier with
      | some owner => exact .inr ⟨owner, by simp [collision?, known, owned]⟩
      | none => simp [known, owned] at taken

/-- What a state knows of namespaces and of types is not forgotten. -/
structure GrowsTo (before after : UnitState) : Prop where
  namespaces : before.namespaces <+: after.namespaces
  byType : before.byType <+: after.byType
  autoGenerated : before.autoGenerated <:+ after.autoGenerated

namespace GrowsTo

theorem rfl {state : UnitState} : state.GrowsTo state :=
  ⟨List.prefix_refl _, List.prefix_refl _, List.suffix_refl _⟩

theorem of_eq {before after : UnitState}
    (namespaces : after.namespaces = before.namespaces) (byType : after.byType = before.byType)
    (autoGenerated : after.autoGenerated = before.autoGenerated) : before.GrowsTo after :=
  ⟨namespaces ▸ List.prefix_refl _, byType ▸ List.prefix_refl _,
    autoGenerated ▸ List.suffix_refl _⟩

theorem trans {first second third : UnitState} (left : first.GrowsTo second)
    (right : second.GrowsTo third) : first.GrowsTo third :=
  ⟨left.namespaces.trans right.namespaces, left.byType.trans right.byType,
    left.autoGenerated.trans right.autoGenerated⟩

theorem of_register {before after : UnitState} {identifier cppType : String}
    (registered : before.register? identifier cppType = some after) : before.GrowsTo after := by
  obtain ⟨-, -, rfl⟩ := register?_eq_some registered
  exact ⟨List.prefix_refl _, List.prefix_append _ _, List.suffix_refl _⟩

theorem identifierFor?_eq_some {before after : UnitState} (grows : before.GrowsTo after)
    {cppType identifier : String} (known : before.identifierFor? cppType = some identifier) :
    after.identifierFor? cppType = some identifier := by
  obtain ⟨added, byType⟩ := grows.byType
  unfold identifierFor? at known ⊢
  rw [← byType, List.lookup_append, known]
  rfl

end GrowsTo

end UnitState

namespace Progress

/-- The progress with another state. -/
def withUnit (progress : Progress) (unit : UnitState) : Progress :=
  { progress with unit }

/-- The progress with more events. -/
def report (progress : Progress) (events : List Event) : Progress :=
  { progress with events := progress.events ++ events }

/-- The progress in which no fragment waits. -/
def release (progress : Progress) : Progress :=
  progress.withUnit progress.unit.release

theorem release_of_pending_eq_nil {progress : Progress} (idle : progress.unit.pending = []) :
    progress.release = progress := by
  rw [release, UnitState.release_of_pending_eq_nil idle]
  rfl

/-- What concerns neither bindings nor fragments may have changed, and events may have come. -/
structure Quiet (before after : Progress) : Prop where
  namespaces : after.unit.namespaces = before.unit.namespaces
  bindings : after.unit.bindings = before.unit.bindings
  byType : after.unit.byType = before.unit.byType
  autoGenerated : after.unit.autoGenerated = before.unit.autoGenerated
  pending : after.unit.pending = before.unit.pending
  events : before.events <+: after.events

namespace Quiet

theorem rfl {progress : Progress} : progress.Quiet progress :=
  ⟨Eq.refl _, Eq.refl _, Eq.refl _, Eq.refl _, Eq.refl _, List.prefix_refl _⟩

theorem trans {first second third : Progress} (left : first.Quiet second)
    (right : second.Quiet third) : first.Quiet third :=
  ⟨right.namespaces.trans left.namespaces, right.bindings.trans left.bindings,
    right.byType.trans left.byType, right.autoGenerated.trans left.autoGenerated,
    right.pending.trans left.pending, left.events.trans right.events⟩

theorem report (progress : Progress) (events : List Event) :
    progress.Quiet (progress.report events) :=
  ⟨Eq.refl _, Eq.refl _, Eq.refl _, Eq.refl _, Eq.refl _, List.prefix_append _ _⟩

theorem growsTo {before after : Progress} (quiet : before.Quiet after) :
    before.unit.GrowsTo after.unit :=
  ⟨quiet.namespaces ▸ List.prefix_refl _, quiet.byType ▸ List.prefix_refl _,
    quiet.autoGenerated ▸ List.suffix_refl _⟩

theorem enqueue {before after : Progress} (quiet : before.Quiet after) (fragment : Fragment) :
    (before.withUnit (before.unit.enqueue fragment)).Quiet
      (after.withUnit (after.unit.enqueue fragment)) :=
  ⟨quiet.namespaces, quiet.bindings, quiet.byType, quiet.autoGenerated,
    congrArg (· ++ [fragment]) quiet.pending, quiet.events⟩

end Quiet

end Progress

namespace Gen

/-- A run of a sequence is a run of its first part and one of the rest. -/
theorem run_bind_eq_some {α β : Type} {first : Gen α} {rest : α → Gen β} {before : Progress}
    {result : β × Progress} (run : (first >>= rest).run before = some result) :
    ∃ value between, first.run before = some (value, between) ∧
      (rest value).run between = some result := by
  rw [StateT.run_bind] at run
  obtain ⟨⟨value, between⟩, firstRun, restRun⟩ := Option.bind_eq_some_iff.mp run
  exact ⟨value, between, firstRun, restRun⟩

theorem run_bind_of_eq_some {α β : Type} {first : Gen α} {rest : α → Gen β}
    {before between : Progress} {value : α} (run : first.run before = some (value, between)) :
    (first >>= rest).run before = (rest value).run between := by
  rw [StateT.run_bind, run]
  rfl

theorem run_pure_eq_some {α : Type} {value result : α} {before after : Progress}
    (run : (pure value : Gen α).run before = some (result, after)) :
    result = value ∧ after = before := by
  rw [StateT.run_pure] at run
  cases Option.some.inj run
  exact ⟨rfl, rfl⟩

@[simp] theorem run_unit (progress : Progress) :
    Gen.unit.run progress = some (progress.unit, progress) :=
  rfl

@[simp] theorem run_change (change : UnitState → UnitState) (progress : Progress) :
    (Gen.change change).run progress = some ((), progress.withUnit (change progress.unit)) :=
  rfl

@[simp] theorem run_report (event : Event) (progress : Progress) :
    (Gen.report event).run progress = some ((), progress.report [event]) :=
  rfl

@[simp] theorem run_takePending (progress : Progress) :
    Gen.takePending.run progress = some (progress.unit.pending, progress.release) :=
  rfl

@[simp] theorem run_enqueue (fragment : Fragment) (progress : Progress) :
    (Gen.enqueue fragment).run progress =
      some ((), progress.withUnit (progress.unit.enqueue fragment)) :=
  rfl

/-- The event that tells of a refused binding; there is none if the type is bound already. -/
def collisionEvents (unit : UnitState) (identifier cppType : String) : List Event :=
  (unit.collision? identifier cppType).toList.map fun owner =>
    .identifierCollision identifier owner cppType

theorem run_register (identifier cppType : String) (progress : Progress) :
    (Gen.register identifier cppType).run progress =
      match progress.unit.register? identifier cppType with
      | some unit => some (true, progress.withUnit unit)
      | none =>
          some (false, progress.report (collisionEvents progress.unit identifier cppType)) := by
  rw [Gen.register, StateT.run_bind, run_unit]
  cases registered : progress.unit.register? identifier cppType with
  | some unit => simp [registered]
  | none =>
      cases owner : progress.unit.collision? identifier cppType <;>
        simp [registered, owner, collisionEvents, Progress.report]

/-- What a binding comes to: a state in which it is made, or perhaps an event. -/
theorem run_register_eq_some {identifier cppType : String} {bound : Bool}
    {before after : Progress}
    (run : (Gen.register identifier cppType).run before = some (bound, after)) :
    (∃ unit, bound = true ∧ before.unit.register? identifier cppType = some unit ∧
        after = before.withUnit unit) ∨
      (bound = false ∧ before.unit.register? identifier cppType = none ∧
        after = before.report (collisionEvents before.unit identifier cppType)) := by
  rw [run_register] at run
  split at run
  case h_1 unit registered =>
    cases Option.some.inj run
    exact .inl ⟨unit, rfl, registered, rfl⟩
  case h_2 taken =>
    cases Option.some.inj run
    exact .inr ⟨rfl, taken, rfl⟩

/-- A computation whose runs are quiet. -/
def IsQuiet {α : Type} (step : Gen α) : Prop :=
  ∀ before value after, step.run before = some (value, after) → before.Quiet after

namespace IsQuiet

variable {α β : Type}

theorem pure (value : α) : IsQuiet (Pure.pure value : Gen α) := by
  intro before result after run
  obtain ⟨-, rfl⟩ := run_pure_eq_some run
  exact .rfl

theorem bind {first : Gen α} {rest : α → Gen β} (quietFirst : first.IsQuiet)
    (quietRest : ∀ value, (rest value).IsQuiet) : (first >>= rest).IsQuiet := by
  intro before result after run
  obtain ⟨value, between, firstRun, restRun⟩ := run_bind_eq_some run
  exact (quietFirst _ _ _ firstRun).trans (quietRest value _ _ _ restRun)

theorem unit : IsQuiet Gen.unit := by
  intro before value after run
  rw [run_unit] at run
  cases Option.some.inj run
  exact .rfl

theorem report (event : Event) : IsQuiet (Gen.report event) := by
  intro before value after run
  rw [run_report] at run
  cases Option.some.inj run
  exact .report before [event]

theorem change {update : UnitState → UnitState}
    (kept : ∀ unit, (update unit).namespaces = unit.namespaces ∧
      (update unit).bindings = unit.bindings ∧ (update unit).byType = unit.byType ∧
      (update unit).autoGenerated = unit.autoGenerated ∧
      (update unit).pending = unit.pending) : IsQuiet (Gen.change update) := by
  intro before value after run
  rw [run_change] at run
  cases Option.some.inj run
  obtain ⟨namespaces, bindings, byType, autoGenerated, pending⟩ := kept before.unit
  exact ⟨namespaces, bindings, byType, autoGenerated, pending, List.prefix_refl _⟩

theorem includeBuilders (path : String) : IsQuiet (Gen.change (·.includeBuilders path)) := by
  apply change
  intro unit
  unfold UnitState.includeBuilders
  split <;> exact ⟨rfl, rfl, rfl, rfl, rfl⟩

theorem addTraits (traits : IteratorTraits) : IsQuiet (Gen.change (·.addTraits traits)) := by
  apply change
  intro unit
  unfold UnitState.addTraits
  split <;> exact ⟨rfl, rfl, rfl, rfl, rfl⟩

theorem addBuilder (template : String) (builder : Builder) :
    IsQuiet (Gen.change (·.addBuilder template builder)) :=
  change fun _ => ⟨rfl, rfl, rfl, rfl, rfl⟩

theorem pushOperator (operator : FreeOperator) :
    IsQuiet (Gen.change (·.pushOperator operator)) :=
  change fun _ => ⟨rfl, rfl, rfl, rfl, rfl⟩

end IsQuiet

end Gen

namespace UnitContext

variable (context : UnitContext)

theorem skipped_isQuiet (id : DeclId) : (context.skipped id).IsQuiet := by
  unfold skipped
  cases context.skipRule? id with
  | none => exact .pure false
  | some found => exact .bind (.report _) fun _ => .pure true

theorem mentionsSkipped_isQuiet (id : DeclId) (spellings : List String) :
    (context.mentionsSkipped id spellings).IsQuiet := by
  unfold mentionsSkipped
  cases context.skippedMention? spellings with
  | none => exact .pure false
  | some mention => exact .bind (.report _) fun _ => .pure true

theorem exported_isQuiet (id : DeclId) : (context.exported id).IsQuiet := by
  unfold exported
  split
  · exact .pure true
  · exact .bind (.report _) fun _ => .pure false

theorem builderCall_isQuiet (template : DeclId) (args : List String) :
    (context.builderCall template args).IsQuiet := by
  unfold builderCall
  refine .bind .unit fun unit => ?_
  split
  · exact .pure _
  · split
    · exact .bind (.includeBuilders _) fun _ => .pure _
    · exact .pure none

end UnitContext

end Bindery
