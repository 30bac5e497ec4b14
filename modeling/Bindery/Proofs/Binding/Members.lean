import Bindery.Proofs.Binding.Composition
import Bindery.Proofs.Binding.Synthesis

/-!
# Members by steps

What is made from the members of a class, from signatures and from functions changes a draft by
steps alone, as long as no base is being looked for.
-/

set_option autoImplicit false

namespace Bindery

namespace Gen

/-- A computation that changes drafts by steps alone while no base is looked for. -/
def Follows (context : UnitContext) {α : Type} (step : Gen α) : Prop :=
  ∀ (draft : Draft) (value : α) (progress : Progress), draft.asking = [] →
    step.run draft.progress = some (value, progress) →
    Steps context draft (draft.advance progress)

namespace Follows

variable {context : UnitContext} {α β : Type}

theorem of_isQuiet {step : Gen α} (quiet : step.IsQuiet) : step.Follows context := by
  intro draft value progress _ run
  exact UnitContext.steps_of_isQuiet quiet run

theorem pure (value : α) : Follows context (Pure.pure value : Gen α) :=
  of_isQuiet (.pure value)

theorem bind {first : Gen α} {rest : α → Gen β} (followsFirst : first.Follows context)
    (followsRest : ∀ value, (rest value).Follows context) : (first >>= rest).Follows context := by
  intro draft result progress idle run
  obtain ⟨value, between, firstRun, restRun⟩ := run_bind_eq_some run
  exact (followsFirst draft value between idle firstRun).trans
    (followsRest value (draft.advance between) result progress idle restRun)

theorem isInherited : IsInherited (Follows context) where
  pure := pure
  bind := bind
  report event := of_isQuiet (.report event)
  addTraits traits := of_isQuiet (.addTraits traits)

end Follows

end Gen

namespace UnitContext

variable (context : UnitContext)

theorem ensureInstantiation_follows (type : TypeId) :
    (context.ensureInstantiation type).Follows context := by
  intro draft value progress idle run
  unfold ensureInstantiation at run
  split at run
  case h_1 template cppType args named =>
    obtain ⟨bound, between, requireRun, run⟩ := Gen.run_bind_eq_some run
    obtain ⟨-, rfl⟩ := Gen.run_pure_eq_some run
    refine (requireInstantiationTo_steps _ draft (.inr (.inr ⟨type, named⟩)) ?_ requireRun).1
    intro own member
    rw [idle] at member
    cases member
  case h_2 =>
    obtain ⟨-, rfl⟩ := Gen.run_pure_eq_some run
    exact .refl

theorem signature_follows (function : DeclId) (inTemplate : Bool) :
    (context.signature function inTemplate).Follows context :=
  Gen.Follows.isInherited.signature fun _ _ _ type _ => context.ensureInstantiation_follows type

theorem classMembers_follows (id : DeclId) (classType : String) (inTemplate : Bool) :
    (context.classMembers id classType inTemplate).Follows context :=
  Gen.Follows.isInherited.classMembers fun child _ _ => context.signature_follows child inTemplate

end UnitContext

end Bindery
