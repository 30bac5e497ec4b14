import Bindery.Proofs.Binding.Synthesis

/-!
# Steps from a state in which nothing waits

The fragments that wait are taken after each visit of a declaration.  So each visit begins with none
waiting, and so does what is visited one after the other in a scope.
-/

set_option autoImplicit false

namespace Bindery

namespace Gen

/-- Two steps that do the same when nothing waits. -/
def SameWhenIdle {α : Type} (first second : Gen α) : Prop :=
  ∀ progress, progress.unit.pending = [] → first.run progress = second.run progress

/-- A step that leaves nothing waiting if nothing did. -/
def StaysIdle {α : Type} (step : Gen α) : Prop :=
  ∀ {before value after}, before.unit.pending = [] → step.run before = some (value, after) →
    after.unit.pending = []

theorem IsQuiet.staysIdle {α : Type} {step : Gen α} (quiet : step.IsQuiet) : step.StaysIdle :=
  fun idle run => (quiet _ _ _ run).pending.trans idle

theorem run_bind_congr {α β : Type} {first second : Gen α} {rest other : α → Gen β}
    {progress : Progress} (here : first.run progress = second.run progress) (after : rest = other) :
    (first >>= rest).run progress = (second >>= other).run progress := by
  rw [StateT.run_bind, StateT.run_bind, here, after]

namespace SameWhenIdle

variable {α β : Type}

theorem of_eq {first second : Gen α} (same : first = second) : first.SameWhenIdle second :=
  fun progress _ => by rw [same]

theorem bind {first second : Gen α} {rest other : α → Gen β} (same : first.SameWhenIdle second)
    (idle : second.StaysIdle) (after : ∀ value, (rest value).SameWhenIdle (other value)) :
    (first >>= rest).SameWhenIdle (second >>= other) := by
  intro progress nothing
  rw [StateT.run_bind, StateT.run_bind, same progress nothing]
  refine Option.bind_congr fun (value, between) run => ?_
  exact after value between (idle nothing run)

/-- Nothing waits once all that waits has been taken. -/
theorem afterTakePending {rest other : List Fragment → Gen β}
    (after : ∀ waiting, (rest waiting).SameWhenIdle (other waiting)) :
    (Gen.takePending >>= rest) = Gen.takePending >>= other := by
  refine StateT.ext fun progress => ?_
  rw [run_bind_of_eq_some (run_takePending progress),
    run_bind_of_eq_some (run_takePending progress)]
  exact after _ _ rfl

end SameWhenIdle

end Gen

namespace UnitContext

section

variable {context : UnitContext} {visit : DeclId → Parent → Gen (List Fragment)} {parent : Parent}

theorem visitAll_cons {id : DeclId} (ids : List DeclId) (accepts : context.accepts id = true) :
    context.visitAll visit (id :: ids) parent = (do
      let produced ← visit id parent
      let waiting ← Gen.takePending
      let later ← context.visitAll visit ids parent
      return waiting ++ produced ++ later) := by
  simp only [visitAll, List.filter_cons_of_pos accepts, List.mapM_cons, bind_assoc, pure_bind,
    List.flatten_cons]

theorem visitAll_cons_of_not_accepts {id : DeclId} (ids : List DeclId)
    (rejects : context.accepts id = false) :
    context.visitAll visit (id :: ids) parent = context.visitAll visit ids parent := by
  rw [visitAll, List.filter_cons_of_neg (Bool.eq_false_iff.mp rejects), visitAll]

theorem visitAll_append (front back : List DeclId) :
    context.visitAll visit (front ++ back) parent = (do
      let before ← context.visitAll visit front parent
      let later ← context.visitAll visit back parent
      return before ++ later) := by
  simp only [visitAll, List.filter_append, List.mapM_append, bind_assoc, pure_bind,
    List.flatten_append]

theorem visitAll_staysIdle (ids : List DeclId) :
    (context.visitAll visit ids parent).StaysIdle := by
  induction ids with
  | nil =>
      intro before produced after idle run
      obtain ⟨-, rfl⟩ := Gen.run_pure_eq_some run
      exact idle
  | cons id ids ih =>
      cases accepted : context.accepts id with
      | false => rwa [visitAll_cons_of_not_accepts ids accepted]
      | true =>
          intro before produced after idle run
          rw [visitAll_cons ids accepted] at run
          obtain ⟨own, visited, -, run⟩ := Gen.run_bind_eq_some run
          obtain ⟨waiting, released, takeRun, run⟩ := Gen.run_bind_eq_some run
          obtain ⟨later, last, laterRun, run⟩ := Gen.run_bind_eq_some run
          obtain ⟨-, rfl⟩ := Gen.run_pure_eq_some run
          cases Option.some.inj takeRun
          exact ih rfl laterRun

theorem openNamespace_staysIdle (id : DeclId) : (context.openNamespace id parent).StaysIdle := by
  intro before opened after idle run
  obtain ⟨-, -, rfl⟩ | ⟨-, -, rfl⟩ := run_openNamespace run
  · exact idle
  · exact idle

end

end UnitContext

end Bindery
