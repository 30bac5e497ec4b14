import Bindery.Proofs.Binding.Draft

/-!
# Synthesis by steps

A scope that is asked for out of turn, an instantiation that is required and a base that is to be
declared change a draft by steps alone.  What comes back is known afterwards: the scope can be
attached to, the instantiation counts as bound.
-/

set_option autoImplicit false

namespace Bindery

open Draft

namespace UnitContext

variable {context : UnitContext} {draft : Draft} {progress : Progress}

theorem steps_of_isQuiet {α : Type} {step : Gen α} {value : α} (quiet : step.IsQuiet)
    (run : step.run draft.progress = some (value, progress)) :
    Steps context draft (draft.advance progress) :=
  .single (.note (quiet _ _ _ run))

/-! ## Scopes -/

theorem run_openNamespace {id : DeclId} {outer : Parent} {opened : Option Fragment}
    {before after : Progress}
    (run : (context.openNamespace id outer).run before = some (opened, after)) :
    (context.tree.qualifiedName id ∈ before.unit.namespaces ∧ opened = none ∧ after = before) ∨
      (context.tree.qualifiedName id ∉ before.unit.namespaces ∧
        (∃ name, opened = some (.module_ (context.moduleIdentifier id) name outer)) ∧
        after = before.withUnit (before.unit.openModule (context.tree.qualifiedName id)
          (context.moduleIdentifier id))) := by
  unfold openNamespace at run
  obtain ⟨state, start, stateRun, run⟩ := Gen.run_bind_eq_some run
  rw [Gen.run_unit] at stateRun
  cases Option.some.inj stateRun
  by_cases isOpen : before.unit.namespaces.contains (context.tree.qualifiedName id)
  · rw [if_pos isOpen] at run
    obtain ⟨rfl, rfl⟩ := Gen.run_pure_eq_some run
    exact .inl ⟨List.contains_iff_mem.mp isOpen, rfl, rfl⟩
  · rw [if_neg isOpen] at run
    obtain ⟨_, changed, changeRun, run⟩ := Gen.run_bind_eq_some run
    rw [Gen.run_change] at changeRun
    cases Option.some.inj changeRun
    obtain ⟨rfl, rfl⟩ := Gen.run_pure_eq_some run
    exact .inr ⟨fun member => isOpen (List.contains_iff_mem.mpr member), ⟨_, rfl⟩, rfl⟩

theorem knownScope_openModule (unit : UnitState) (id : DeclId) :
    context.KnownScope (unit.openModule (context.tree.qualifiedName id)
      (context.moduleIdentifier id)) (.module_ (context.moduleIdentifier id)) :=
  ⟨_, List.mem_append_right _ (List.mem_singleton_self _), rfl⟩

theorem knownScope_of_boundIdentifier? {unit : UnitState} {cppType identifier : String}
    (bound : context.boundIdentifier? unit cppType = some identifier) :
    context.KnownScope unit (.class_ identifier) := by
  unfold boundIdentifier? at bound
  obtain here | ⟨-, earlier⟩ := Option.or_eq_some_iff.mp bound
  · exact .inl ⟨cppType, here⟩
  · exact .inr ⟨cppType, earlier⟩

/-- What is inside a class is attached to the class if that is bound, else to what is around it. -/
theorem scopeOfClass_steps {cppType : String} {around : Gen Parent} {parent : Parent}
    (outside : ∀ {parent progress}, around.run draft.progress = some (parent, progress) →
      Steps context draft (draft.advance progress) ∧ context.KnownScope progress.unit parent)
    (run : (do
      match context.boundIdentifier? (← Gen.unit) cppType with
      | some identifier => return .class_ identifier
      | none => around : Gen Parent).run draft.progress = some (parent, progress)) :
    Steps context draft (draft.advance progress) ∧ context.KnownScope progress.unit parent := by
  obtain ⟨state, start, stateRun, run⟩ := Gen.run_bind_eq_some run
  rw [Gen.run_unit] at stateRun
  cases Option.some.inj stateRun
  split at run
  case h_1 identifier bound =>
    obtain ⟨rfl, rfl⟩ := Gen.run_pure_eq_some run
    exact ⟨.refl, knownScope_of_boundIdentifier? bound⟩
  case h_2 => exact outside run

theorem ensureScopeTo_steps (depth : Nat) (scope : Option DeclId) {parent : Parent}
    (run : (context.ensureScopeTo depth scope).run draft.progress = some (parent, progress)) :
    Steps context draft (draft.advance progress) ∧ context.KnownScope progress.unit parent := by
  induction depth generalizing scope parent progress with
  | zero =>
      cases scope with
      | none =>
          obtain ⟨rfl, rfl⟩ := Gen.run_pure_eq_some run
          exact ⟨.refl, trivial⟩
      | some id => cases run
  | succ depth ih =>
      cases scope with
      | none =>
          obtain ⟨rfl, rfl⟩ := Gen.run_pure_eq_some run
          exact ⟨.refl, trivial⟩
      | some id =>
          unfold ensureScopeTo at run
          dsimp only at run
          split at run
          case h_1 =>
            obtain ⟨rfl, rfl⟩ := Gen.run_pure_eq_some run
            exact ⟨.refl, trivial⟩
          case h_2 =>
            obtain ⟨outer, between, outerRun, run⟩ := Gen.run_bind_eq_some run
            obtain ⟨outerSteps, outerKnown⟩ := ih _ outerRun
            split at run
            case isFalse =>
              obtain ⟨rfl, rfl⟩ := Gen.run_pure_eq_some run
              exact ⟨outerSteps, outerKnown⟩
            case isTrue =>
              obtain ⟨opened, entered, openRun, restRun⟩ := Gen.run_bind_eq_some run
              obtain ⟨isOpen, rfl, rfl⟩ | ⟨new, ⟨name, rfl⟩, rfl⟩ := run_openNamespace openRun
              · obtain ⟨rfl, rfl⟩ := Gen.run_pure_eq_some restRun
                exact ⟨outerSteps, _, isOpen, rfl⟩
              · obtain ⟨_, queued, queueRun, lastRun⟩ := Gen.run_bind_eq_some restRun
                rw [Gen.run_enqueue] at queueRun
                cases Option.some.inj queueRun
                obtain ⟨rfl, rfl⟩ := Gen.run_pure_eq_some lastRun
                exact ⟨outerSteps.tail (.openModule id name new outerKnown),
                  knownScope_openModule _ id⟩
          case h_6 => exact ih _ run
          all_goals exact scopeOfClass_steps (ih _) run

/-! ## Instantiations -/

theorem admitsInstantiation_isQuiet (template : DeclId) (cppType : String)
    (args : List String) : (context.admitsInstantiation template cppType args).IsQuiet := by
  unfold admitsInstantiation
  split
  · exact .pure false
  · dsimp only
    split
    · exact .bind (.report _) fun _ => .pure false
    · split
      · exact .bind (.report _) fun _ => .pure false
      · exact .pure true

theorem isStd_of_admitsInstantiation {template : DeclId} {cppType : String} {args : List String}
    {before after : Progress}
    (run : (context.admitsInstantiation template cppType args).run before = some (true, after)) :
    context.tree.isStd template = false := by
  unfold admitsInstantiation at run
  split at run
  case isTrue =>
    obtain ⟨admitted, -⟩ := Gen.run_pure_eq_some run
    cases admitted
  case isFalse user => exact Bool.eq_false_iff.mpr user

theorem run_bindPlain (require : DeclId → String → List String → Gen (Option String))
    {cppType : String} {decl : Option DeclId} {base : Option String} {before after : Progress}
    (run : (context.bindBase require (.plain cppType decl)).run before = some (base, after)) :
    before.Quiet after ∧ ∀ spelling ∈ base, spelling = cppType := by
  have answer : ∀ (excluded : Bool) (between : Progress),
      (if excluded || (context.options.skip.mentionedIn cppType).isSome then pure none
        else pure (some cppType) : Gen (Option String)).run between = some (base, after) →
      after = between ∧ ∀ spelling ∈ base, spelling = cppType := by
    intro excluded between answerRun
    split at answerRun
    · obtain ⟨rfl, rfl⟩ := Gen.run_pure_eq_some answerRun
      exact ⟨rfl, nofun⟩
    · obtain ⟨rfl, rfl⟩ := Gen.run_pure_eq_some answerRun
      exact ⟨rfl, fun spelling member => (Option.some.inj member).symm⟩
  unfold bindBase at run
  dsimp only at run
  cases decl with
  | none =>
      obtain ⟨rfl, same⟩ := answer false _ run
      exact ⟨.rfl, same⟩
  | some id =>
      dsimp only at run
      split at run
      case isTrue =>
        obtain ⟨rfl, same⟩ := answer true _ run
        exact ⟨.rfl, same⟩
      case isFalse =>
        obtain ⟨excluded, between, skipRun, answerRun⟩ := Gen.run_bind_eq_some run
        obtain ⟨rfl, same⟩ := answer excluded _ answerRun
        exact ⟨context.skipped_isQuiet id _ _ _ skipRun, same⟩

/-- The innermost instantiation is bound in the scope of its template, or it is refused. -/
theorem synthesize_steps (draft : Draft) {template : DeclId} {cppType : String}
    {args outer : List String}
    {base : Option String} {result : Unit} (seeking : draft.seeking = cppType :: outer)
    (found : context.BaseFound draft.unit cppType base)
    (run : (context.synthesize template cppType args base).run draft.progress =
      some (result, progress)) :
    Steps context draft { draft.advance progress with seeking := outer } := by
  unfold synthesize at run
  obtain ⟨parent, around, scopeRun, run⟩ := Gen.run_bind_eq_some run
  obtain ⟨scopeSteps, known⟩ := ensureScopeTo_steps _ _ scopeRun
  refine scopeSteps.trans ?_
  have found := found.mono scopeSteps.growsTo
  obtain ⟨bound, registered, registerRun, run⟩ := Gen.run_bind_eq_some run
  obtain ⟨unit, rfl, registration, rfl⟩ | ⟨rfl, taken, rfl⟩ :=
    Gen.run_register_eq_some registerRun
  · obtain ⟨builder, called, builderRun, run⟩ := Gen.run_bind_eq_some run
    obtain ⟨_, reported, reportRun, queueRun⟩ := Gen.run_bind_eq_some run
    have quiet := (context.builderCall_isQuiet _ _ _ _ _ builderRun).trans
      (Gen.IsQuiet.report _ _ _ _ reportRun)
    rw [Gen.run_enqueue] at queueRun
    cases Option.some.inj queueRun
    exact .tail (.single (.finish _ (context.synthesizedName template args) builder seeking
      registration found known)) (.note (quiet.enqueue _))
  · obtain ⟨-, rfl⟩ := Gen.run_pure_eq_some run
    exact .single (.refuse _ seeking taken)

/-- The base to declare for a type, if it has one; `require` sees to a base that is an
instantiation. -/
def baseFor (context : UnitContext)
    (require : DeclId → String → List String → Gen (Option String)) :
    Option BaseClass → Gen (Option String)
  | some base => context.bindBase require base
  | none => return none

theorem declaredBase_eq_baseFor (base : Option BaseClass) :
    context.declaredBase base = context.baseFor context.requireInstantiation base := by
  cases base <;> rfl

/-- An instantiation that is required is not admitted, bound already, or made, its base first. -/
theorem run_requireInstantiationTo {depth : Nat} {template : DeclId} {cppType : String}
    {args : List String} {bound : Option String} {before after : Progress}
    (run : (context.requireInstantiationTo depth template cppType args).run before =
      some (bound, after)) :
    ∃ asked, before.Quiet asked ∧
      ((bound = none ∧ after = asked) ∨
        (bound = some cppType ∧ after = asked ∧ context.isBound asked.unit cppType = true) ∨
        (bound = some cppType ∧ context.isBound asked.unit cppType = false ∧
          context.tree.isStd template = false ∧
          ∃ less base between, depth = less + 1 ∧
            (context.baseFor (context.requireInstantiationTo less)
              (context.speller.instantiateBase? template args)).run
                (asked.withUnit (asked.unit.markGenerated cppType)) = some (base, between) ∧
            (context.synthesize template cppType args base).run between = some ((), after))) := by
  unfold requireInstantiationTo at run
  obtain ⟨admitted, asked, admitRun, run⟩ := Gen.run_bind_eq_some run
  refine ⟨asked, context.admitsInstantiation_isQuiet _ _ _ _ _ _ admitRun, ?_⟩
  cases admitted with
  | false =>
      obtain ⟨rfl, rfl⟩ := Gen.run_pure_eq_some run
      exact .inl ⟨rfl, rfl⟩
  | true =>
      obtain ⟨state, start, stateRun, run⟩ := Gen.run_bind_eq_some run
      rw [Gen.run_unit] at stateRun
      cases Option.some.inj stateRun
      cases known : context.isBound asked.unit cppType with
      | true =>
          rw [if_pos known] at run
          obtain ⟨rfl, rfl⟩ := Gen.run_pure_eq_some run
          exact .inr (.inl ⟨rfl, rfl, rfl⟩)
      | false =>
          rw [if_neg (Bool.eq_false_iff.mp known)] at run
          have user := isStd_of_admitsInstantiation admitRun
          cases depth with
          | zero => cases run
          | succ less =>
              dsimp only at run
              obtain ⟨_, marked, markRun, run⟩ := Gen.run_bind_eq_some run
              rw [Gen.run_change] at markRun
              cases Option.some.inj markRun
              have parts : ∃ base between,
                  (context.baseFor (context.requireInstantiationTo less)
                    (context.speller.instantiateBase? template args)).run
                      (asked.withUnit (asked.unit.markGenerated cppType)) =
                        some (base, between) ∧
                  (context.synthesize template cppType args base >>= fun _ =>
                    pure (some cppType)).run between = some (bound, after) := by
                cases found : context.speller.instantiateBase? template args with
                | some base =>
                    rw [found] at run
                    exact Gen.run_bind_eq_some run
                | none =>
                    rw [found] at run
                    exact Gen.run_bind_eq_some run
              obtain ⟨base, between, baseRun, run⟩ := parts
              obtain ⟨_, made, madeRun, run⟩ := Gen.run_bind_eq_some run
              obtain ⟨rfl, rfl⟩ := Gen.run_pure_eq_some run
              exact .inr (.inr ⟨rfl, rfl, user, less, base, between, rfl, baseRun, madeRun⟩)

/-- What is required for the sake of a type, if there is one, is a base of that type. -/
def RequiredBy (context : UnitContext) (asking : List String) (base : BaseClass) : Prop :=
  ∀ own ∈ asking.head?, context.HasBase own base

theorem baseFor_steps (draft : Draft)
    {require : DeclId → String → List String → Gen (Option String)}
    {own : String} {base? : Option BaseClass} {declared : Option String}
    (requireSteps : ∀ {template cppType args bound progress},
      context.Spells template args cppType →
      context.RequiredBy draft.asking (.instantiation template cppType args) →
      (require template cppType args).run draft.progress = some (bound, progress) →
      Steps context draft (draft.advance progress) ∧
        ∀ spelling ∈ bound, context.isBound progress.unit spelling = true)
    (innermost : draft.asking.head? = some own)
    (spells : ∀ {template cppType args}, base? = some (.instantiation template cppType args) →
      context.Spells template args cppType)
    (has : ∀ base, base? = some base → context.HasBase own base)
    (run : (context.baseFor require base?).run draft.progress = some (declared, progress)) :
    Steps context draft (draft.advance progress) ∧
      context.BaseFound progress.unit own declared := by
  cases base? with
  | none =>
      obtain ⟨rfl, rfl⟩ := Gen.run_pure_eq_some run
      exact ⟨.refl, nofun⟩
  | some base =>
      cases base with
      | instantiation template cppType args =>
          have required :
              context.RequiredBy draft.asking (.instantiation template cppType args) := by
            intro inner member
            rw [innermost] at member
            cases Option.some.inj member
            exact has _ rfl
          obtain ⟨steps, isBound⟩ := requireSteps (spells rfl) required run
          exact ⟨steps, fun spelling member => .inr (isBound spelling member)⟩
      | plain cppType decl =>
          obtain ⟨quiet, same⟩ := run_bindPlain require run
          refine ⟨.single (.note quiet), fun spelling member => .inl ⟨decl, ?_⟩⟩
          rw [same spelling member]
          exact has _ rfl

theorem requireInstantiationTo_steps (depth : Nat) (draft : Draft) {template : DeclId}
    {cppType : String} {args : List String} {bound : Option String}
    (spells : context.Spells template args cppType)
    (required : context.RequiredBy draft.asking (.instantiation template cppType args))
    (run : (context.requireInstantiationTo depth template cppType args).run draft.progress =
      some (bound, progress)) :
    Steps context draft (draft.advance progress) ∧
      ∀ spelling ∈ bound, context.isBound progress.unit spelling = true := by
  induction depth using Nat.strongRecOn generalizing draft template cppType args bound progress
  case ind depth ih =>
  obtain ⟨asked, quiet, ⟨rfl, rfl⟩ | ⟨rfl, rfl, known⟩ |
    ⟨rfl, unbound, user, less, base, between, rfl, baseRun, madeRun⟩⟩ :=
    run_requireInstantiationTo run
  · exact ⟨.single (.note quiet), nofun⟩
  · refine ⟨.single (.note quiet), fun spelling member => ?_⟩
    cases Option.some.inj member
    exact known
  · let begun : Draft :=
      { draft.advance (asked.withUnit (asked.unit.markGenerated cppType)) with
        seeking := cppType :: draft.seeking }
    have begins : Steps context draft begun :=
      .tail (.single (.note quiet))
        (.begin unbound fun own member => ⟨template, args, required own member, user⟩)
    obtain ⟨baseSteps, found⟩ := baseFor_steps begun
      (fun spells required run => ih less (Nat.lt_succ_self less) _ spells required run) rfl
      (fun {inner spelling written} isBase =>
        .inl ⟨template, context.tree.parameterNames template, args, isBase⟩)
      (fun base isBase => .inr ⟨template, args, spells, isBase⟩) baseRun
    have makes := synthesize_steps (begun.advance between) rfl found madeRun
    have steps := (begins.trans baseSteps).trans makes
    refine ⟨steps, fun spelling member => ?_⟩
    cases Option.some.inj member
    have generated : context.isBound begun.unit cppType = true := by
      simp [isBound, begun, Draft.unit, Draft.advance, Progress.withUnit,
        UnitState.markGenerated]
    exact isBound_mono generated (Steps.growsTo (baseSteps.trans makes))

end UnitContext

end Bindery
