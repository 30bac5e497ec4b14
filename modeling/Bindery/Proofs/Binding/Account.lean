import Bindery.Proofs.Binding.Origin

/-!
# Computations that account for what they do

A computation obeys the rules if every state that it reaches is accountable again.  What it answers
is told of the state at its end, and such answers stay true while the state grows; so the rules for
sequences and lists let each part start from any state that an earlier one has grown to.
-/

set_option autoImplicit false

namespace Bindery

namespace UnitContext

variable {context : UnitContext} {before after : UnitState}

theorem accountable_empty : context.Accountable .empty :=
  ⟨nofun, nofun, nofun, nofun⟩

namespace Accountable

theorem grow (accountable : context.Accountable before) (grows : before.GrowsTo after)
    (namespaces : after.namespaces = before.namespaces) (pending : after.pending = before.pending)
    (builders : after.builders = before.builders) (operators : after.operators = before.operators) :
    context.Accountable after := by
  refine ⟨namespaces ▸ accountable.namespaces, ?_, builders ▸ accountable.builders,
    operators ▸ accountable.operators⟩
  rw [pending]
  exact accountable.pending.mono grows

theorem release (accountable : context.Accountable before) : context.Accountable before.release :=
  ⟨accountable.namespaces, nofun, accountable.builders, accountable.operators⟩

theorem enqueue (accountable : context.Accountable before) {fragment : Fragment}
    (made : context.IsMade before fragment) : context.Accountable (before.enqueue fragment) := by
  have waits := areMade_append accountable.pending (areMade_singleton made)
  exact ⟨accountable.namespaces, waits.mono (.of_eq rfl rfl rfl), accountable.builders,
    accountable.operators⟩

theorem openModule (accountable : context.Accountable before) {id : DeclId} (identifier : String)
    (isNamespace : (context.tree.decl id).kind = .namespaceDecl) :
    context.Accountable (before.openModule (context.tree.qualifiedName id) identifier) := by
  have grows : before.GrowsTo (before.openModule (context.tree.qualifiedName id) identifier) :=
    ⟨List.prefix_append _ _, List.prefix_refl _, List.suffix_refl _⟩
  refine ⟨?_, accountable.pending.mono grows, accountable.builders, accountable.operators⟩
  intro qualified isOpen
  rcases List.mem_append.mp isOpen with earlier | new
  · exact accountable.namespaces qualified earlier
  · exact ⟨id, isNamespace, (List.mem_singleton.mp new).symm⟩

theorem addBuilder (accountable : context.Accountable before) {id : DeclId} (template : String)
    {builder : Builder} (made : context.IsBuilderOf id builder) :
    context.Accountable (before.addBuilder template builder) := by
  refine ⟨accountable.namespaces, accountable.pending.mono (.of_eq rfl rfl rfl), ?_,
    accountable.operators⟩
  intro other member
  rcases List.mem_append.mp member with earlier | new
  · exact accountable.builders other earlier
  · cases List.mem_singleton.mp new
    exact ⟨id, made⟩

theorem pushOperator (accountable : context.Accountable before) {id : DeclId}
    {operator : FreeOperator} (made : context.IsOperatorOf id operator) :
    context.Accountable (before.pushOperator operator) := by
  refine ⟨accountable.namespaces, accountable.pending.mono (.of_eq rfl rfl rfl),
    accountable.builders, ?_⟩
  intro entry member lambda waits
  change entry ∈ (before.operators.push operator).pending at member
  unfold OperatorQueue.push at member
  split at member
  case isTrue =>
    obtain ⟨earlier, known, rfl⟩ := List.mem_map.mp member
    by_cases same : earlier.1 = operator.target
    · rw [if_pos same] at waits ⊢
      rcases List.mem_append.mp waits with old | new
      · exact accountable.operators earlier known lambda old
      · cases List.mem_singleton.mp new
        rw [same]
        exact ⟨id, made⟩
    · rw [if_neg same] at waits ⊢
      exact accountable.operators earlier known lambda waits
  case isFalse =>
    rcases List.mem_append.mp member with earlier | new
    · exact accountable.operators entry earlier lambda waits
    · cases List.mem_singleton.mp new
      cases List.mem_singleton.mp waits
      exact ⟨id, made⟩

end Accountable

end UnitContext

/-! ## Rules for computations -/

namespace Gen

/-- Started in a state that the given one has grown to, a computation lets the state grow, keeps it
accountable and gives such an answer. -/
def Obeys (context : UnitContext) (unit : UnitState) {α : Type} (step : Gen α)
    (answers : UnitState → α → Prop) : Prop :=
  ∀ before value after, unit.GrowsTo before.unit → context.Accountable before.unit →
    step.run before = some (value, after) →
    before.unit.GrowsTo after.unit ∧ context.Accountable after.unit ∧ answers after.unit value

namespace Obeys

variable {context : UnitContext} {unit : UnitState} {α β : Type}

theorem pure {value : α} {answers : UnitState → α → Prop}
    (holds : ∀ later, unit.GrowsTo later → answers later value) :
    Obeys context unit (Pure.pure value) answers := by
  intro before result after reached accountable run
  obtain ⟨rfl, rfl⟩ := run_pure_eq_some run
  exact ⟨.rfl, accountable, holds _ reached⟩

theorem bind {first : Gen α} {rest : α → Gen β} {middle : UnitState → α → Prop}
    {answers : UnitState → β → Prop} (obeysFirst : Obeys context unit first middle)
    (obeysRest : ∀ value later, unit.GrowsTo later → middle later value →
      Obeys context later (rest value) answers) :
    Obeys context unit (first >>= rest) answers := by
  intro before result after reached accountable run
  obtain ⟨value, between, firstRun, restRun⟩ := run_bind_eq_some run
  obtain ⟨grows, stays, found⟩ := obeysFirst before value between reached accountable firstRun
  obtain ⟨further, remains, holds⟩ := obeysRest value between.unit (reached.trans grows) found
    between result after .rfl stays restRun
  exact ⟨grows.trans further, remains, holds⟩

theorem done {value : α} : Obeys context unit (Pure.pure value) fun _ _ => True :=
  .pure fun _ _ => trivial

theorem mono {step : Gen α} {answers : UnitState → α → Prop} {later : UnitState}
    (obeys : Obeys context unit step answers) (grows : unit.GrowsTo later) :
    Obeys context later step answers :=
  fun before value after reached => obeys before value after (grows.trans reached)

/-- The rest of a sequence whose first part tells it nothing of the state. -/
theorem andThen {first : Gen α} {rest : α → Gen β} {holds : α → Prop}
    {answers : UnitState → β → Prop} (obeysFirst : Obeys context unit first fun _ => holds)
    (obeysRest : ∀ value, holds value → Obeys context unit (rest value) answers) :
    Obeys context unit (first >>= rest) answers :=
  .bind obeysFirst fun value _ grows found => (obeysRest value found).mono grows

theorem weaken {step : Gen α} {answers weaker : UnitState → α → Prop}
    (obeys : Obeys context unit step answers)
    (implies : ∀ later value, unit.GrowsTo later → answers later value → weaker later value) :
    Obeys context unit step weaker := by
  intro before value after reached accountable run
  obtain ⟨grows, stays, holds⟩ := obeys before value after reached accountable run
  exact ⟨grows, stays, implies _ _ (reached.trans grows) holds⟩

theorem mapM {step : α → Gen β} {values : List α} {holds : UnitState → β → Prop}
    (lasts : ∀ {earlier later result}, earlier.GrowsTo later → holds earlier result →
      holds later result)
    (each : ∀ value ∈ values, Obeys context unit (step value) holds) :
    Obeys context unit (values.mapM step) fun later results =>
      ∀ result ∈ results, holds later result := by
  induction values generalizing unit with
  | nil =>
      rw [List.mapM_nil]
      exact .pure fun _ _ => nofun
  | cons value rest ih =>
      rw [List.mapM_cons]
      refine .bind (each value List.mem_cons_self) fun first middle grows found => ?_
      -- The answer is given in the middle of the list and told of its end, so it has to last.
      have others := ih fun other member => (each other (List.mem_cons_of_mem _ member)).mono grows
      refine .bind others fun results later further known => .pure fun last grown => ?_
      intro result member
      rcases List.mem_cons.mp member with rfl | behind
      · exact lasts (further.trans grown) found
      · exact lasts grown (known result behind)

theorem forM {step : α → Gen PUnit} {values : List α}
    (each : ∀ value ∈ values, Obeys context unit (step value) fun _ _ => True) :
    Obeys context unit (values.forM step) fun _ _ => True := by
  induction values with
  | nil => exact .done
  | cons value rest ih =>
      refine .andThen (each value List.mem_cons_self) fun _ _ => ?_
      exact ih fun other member => each other (List.mem_cons_of_mem _ member)

theorem forIn {step : α → β → Gen (ForInStep β)}
    (each : ∀ value state, Obeys context unit (step value state) fun _ _ => True)
    (values : List α) (state : β) :
    Obeys context unit (ForIn.forIn values state step) fun _ _ => True := by
  induction values generalizing state with
  | nil =>
      rw [List.forIn_nil]
      exact .done
  | cons value rest ih =>
      rw [List.forIn_cons]
      refine .andThen (each value state) fun next _ => ?_
      cases next with
      | done result => exact .done
      | yield result => exact ih result

theorem of_unchanged {step : Gen α} {holds : α → Prop}
    (unchanged : ∀ {before value after}, step.run before = some (value, after) →
      after.unit = before.unit ∧ holds value) :
    Obeys context unit step fun _ => holds := by
  intro before value after _ accountable run
  obtain ⟨same, answered⟩ := unchanged run
  exact ⟨same ▸ .rfl, same ▸ accountable, answered⟩

/-! ### The operations on the state -/

theorem unit_ : Obeys context unit Gen.unit fun later state => state = later := by
  intro before value after _ accountable run
  rw [run_unit] at run
  cases Option.some.inj run
  exact ⟨.rfl, accountable, rfl⟩

theorem report (event : Event) : Obeys context unit (Gen.report event) fun _ _ => True := by
  refine of_unchanged fun {before value after} run => ?_
  rw [run_report] at run
  cases Option.some.inj run
  exact ⟨rfl, trivial⟩

theorem change {update : UnitState → UnitState}
    (grows : ∀ later : UnitState, later.GrowsTo (update later))
    (keeps : ∀ later, unit.GrowsTo later → context.Accountable later →
      context.Accountable (update later)) :
    Obeys context unit (Gen.change update) fun _ _ => True := by
  intro before value after reached accountable run
  rw [run_change] at run
  cases Option.some.inj run
  exact ⟨grows _, keeps _ reached accountable, trivial⟩

theorem register (identifier cppType : String) :
    Obeys context unit (Gen.register identifier cppType) fun later bound =>
      bound = true → later.identifierFor? cppType = some identifier := by
  intro before value after _ accountable run
  obtain ⟨state, rfl, registered, rfl⟩ | ⟨rfl, -, rfl⟩ := run_register_eq_some run
  · have grows := UnitState.GrowsTo.of_register registered
    refine ⟨grows, ?_, fun _ => UnitState.identifierFor?_of_register registered⟩
    obtain ⟨-, -, rfl⟩ := UnitState.register?_eq_some registered
    exact accountable.grow grows rfl rfl rfl rfl
  · exact ⟨.rfl, accountable, nofun⟩

theorem takePending :
    Obeys context unit Gen.takePending fun later fragments => context.AreMade later fragments := by
  intro before value after _ accountable run
  rw [run_takePending] at run
  cases Option.some.inj run
  have grows : before.unit.GrowsTo before.unit.release := .of_eq rfl rfl rfl
  exact ⟨grows, accountable.release, accountable.pending.mono grows⟩

theorem enqueue {fragment : Fragment} (made : context.IsMade unit fragment) :
    Obeys context unit (Gen.enqueue fragment) fun _ _ => True := by
  refine change (fun later => ?_) fun later grows accountable => ?_
  · exact .of_eq rfl rfl rfl
  · exact accountable.enqueue (made.mono grows)

theorem markGenerated (cppType : String) :
    Obeys context unit (Gen.change (·.markGenerated cppType)) fun _ _ => True := by
  have grows (later : UnitState) : later.GrowsTo (later.markGenerated cppType) :=
    ⟨List.prefix_refl _, List.prefix_refl _, List.suffix_cons _ _⟩
  exact change grows fun later _ accountable => accountable.grow (grows later) rfl rfl rfl rfl

/-- Iterator classes and included files have no origin to account for. -/
theorem change_aside {update : UnitState → UnitState}
    (aside : ∀ later : UnitState, ∃ traits includes,
      update later = { later with iteratorTraits := traits, builderIncludes := includes }) :
    Obeys context unit (Gen.change update) fun _ _ => True := by
  refine change (fun later => ?_) fun later _ accountable => ?_
  · obtain ⟨traits, includes, same⟩ := aside later
    rw [same]
    exact .of_eq rfl rfl rfl
  · obtain ⟨traits, includes, same⟩ := aside later
    rw [same]
    exact accountable.grow (.of_eq rfl rfl rfl) rfl rfl rfl rfl

theorem addTraits (traits : IteratorTraits) :
    Obeys context unit (Gen.change (·.addTraits traits)) fun _ _ => True := by
  refine change_aside fun later => ?_
  unfold UnitState.addTraits
  split
  · exact ⟨later.iteratorTraits, later.builderIncludes, rfl⟩
  · exact ⟨_, later.builderIncludes, rfl⟩

theorem includeBuilders (path : String) :
    Obeys context unit (Gen.change (·.includeBuilders path)) fun _ _ => True := by
  refine change_aside fun later => ?_
  unfold UnitState.includeBuilders
  split
  · exact ⟨later.iteratorTraits, later.builderIncludes, rfl⟩
  · exact ⟨later.iteratorTraits, _, rfl⟩

end Obeys

end Gen

namespace UnitContext

open Gen

variable {context : UnitContext} {unit : UnitState}

/-! ## Rules and registries consulted -/

section

variable {α : Type} {id : DeclId} {answers : UnitState → α → Prop}

theorem bind_reported_obeys {β : Type} {event : Event} {value : β} {rest : β → Gen α}
    (obeysRest : Obeys context unit (rest value) answers) :
    Obeys context unit ((do Gen.report event; return value : Gen β) >>= rest) answers := by
  rw [bind_assoc]
  refine .andThen (.report event) fun _ _ => ?_
  rw [pure_bind]
  exact obeysRest

variable {rest : Bool → Gen α}

theorem bind_skipped_obeys (whenSkipped : Obeys context unit (rest true) answers)
    (whenKept : context.skipRule? id = none → Obeys context unit (rest false) answers) :
    Obeys context unit (context.skipped id >>= rest) answers := by
  unfold skipped
  split
  case h_1 => exact bind_reported_obeys whenSkipped
  case h_2 kept =>
    rw [pure_bind]
    exact whenKept kept

theorem bind_mentionsSkipped_obeys {spellings : List String}
    (whenMentioned : Obeys context unit (rest true) answers)
    (unlessMentioned : context.skippedMention? spellings = none →
      Obeys context unit (rest false) answers) :
    Obeys context unit (context.mentionsSkipped id spellings >>= rest) answers := by
  unfold mentionsSkipped
  split
  case h_1 => exact bind_reported_obeys whenMentioned
  case h_2 unmentioned =>
    rw [pure_bind]
    exact unlessMentioned unmentioned

theorem bind_exported_obeys (whenHidden : Obeys context unit (rest false) answers)
    (whenShown : context.isExported id = true → Obeys context unit (rest true) answers) :
    Obeys context unit (context.exported id >>= rest) answers := by
  unfold exported
  split
  case isTrue shown =>
    rw [pure_bind]
    exact whenShown shown
  case isFalse => exact bind_reported_obeys whenHidden

end

theorem admitsInstantiation_obeys (template : DeclId) (cppType : String) (args : List String) :
    Obeys context unit (context.admitsInstantiation template cppType args) fun _ admitted =>
      admitted = context.admits template cppType args := by
  refine .of_unchanged fun {before value after} run => ?_
  obtain ⟨events, admitsRun⟩ := context.run_admitsInstantiation template cppType args before
  rw [admitsRun] at run
  cases Option.some.inj run
  exact ⟨rfl, rfl⟩

theorem builderCall_obeys (template : DeclId) (args : List String) :
    Obeys context unit (context.builderCall template args) fun _ _ => True := by
  unfold builderCall
  refine .bind .unit_ fun state later _ _ => ?_
  split
  · exact .done
  · split
    · exact .andThen (.includeBuilders _) fun _ _ => .done
    · exact .done

/-! ## Scopes -/

theorem isHome_module {id : DeclId}
    (isOpen : context.tree.qualifiedName id ∈ unit.namespaces) :
    (Parent.module_ (context.moduleIdentifier id)).IsHome unit :=
  ⟨_, isOpen, rfl⟩

theorem openNamespace_obeys {id : DeclId} {parent : Parent}
    (isNamespace : (context.tree.decl id).kind = .namespaceDecl) :
    Obeys context unit (context.openNamespace id parent) fun later opened =>
      context.tree.qualifiedName id ∈ later.namespaces ∧
        ∀ fragment ∈ opened, fragment = context.moduleOf id parent := by
  unfold openNamespace
  refine .bind .unit_ fun state later grows same => ?_
  subst same
  dsimp only
  split
  case isTrue isOpen =>
    refine .pure fun last further => ⟨?_, nofun⟩
    exact further.namespaces.subset (List.contains_iff_mem.mp isOpen)
  case isFalse =>
    intro before value after reached accountable run
    obtain ⟨_, between, changeRun, run⟩ := run_bind_eq_some run
    rw [run_change] at changeRun
    cases Option.some.inj changeRun
    obtain ⟨rfl, rfl⟩ := run_pure_eq_some run
    refine ⟨⟨List.prefix_append _ _, List.prefix_refl _, List.suffix_refl _⟩,
      accountable.openModule _ isNamespace, ?_, ?_⟩
    · exact List.mem_append_right _ (List.mem_singleton_self _)
    · exact fun fragment member => (Option.some.inj member).symm

theorem scopeOfClass_obeys {id inner : DeclId} {around : Gen Parent}
    (record : (context.tree.decl id).kind.isRecord) (inside : context.tree.IsInside inner id)
    (outside : Obeys context unit around fun later => context.IsScopeOf later inner) :
    Obeys context unit (do
      match context.boundIdentifier? (← Gen.unit) (context.tree.qualifiedName id) with
      | some identifier => return .class_ identifier
      | none => around : Gen Parent) fun later => context.IsScopeOf later inner := by
  refine .bind .unit_ fun state later grows same => ?_
  subst same
  split
  case h_1 identifier bound =>
    refine .pure fun last further => ?_
    unfold boundIdentifier? at bound
    obtain here | ⟨-, earlier⟩ := Option.or_eq_some_iff.mp bound
    · exact .inl ⟨_, further.identifierFor?_eq_some here⟩
    · exact .inr ⟨id, identifier, inside, record, earlier, rfl⟩
  case h_2 => exact outside.mono grows

theorem ensureScopeTo_obeys {template : DeclId} {cppType : String} {args : List String}
    (needed : context.Spells template args cppType) (depth : Nat) {scope : Option DeclId}
    (inside : ∀ id, scope = some id → context.tree.IsInside template id) :
    Obeys context unit (context.ensureScopeTo depth scope) fun later =>
      context.IsScopeOf later template := by
  -- Every scope on the way up is around the template; what it is attached to is an outer one.
  induction depth generalizing scope unit with
  | zero =>
      cases scope with
      | none => exact .pure fun _ _ => .inl trivial
      | some id => exact fun _ _ _ _ _ run => by cases run
  | succ depth ih =>
      cases scope with
      | none => exact .pure fun _ _ => .inl trivial
      | some id =>
          have here := inside id rfl
          have around {later : UnitState} :
              Obeys context later (context.ensureScopeTo depth (context.tree.semanticParent id))
                fun last => context.IsScopeOf last template :=
            ih fun _ outside => here.tail outside
          unfold ensureScopeTo
          dsimp only
          split
          case h_1 => exact .pure fun _ _ => .inl trivial
          case h_2 isNamespace =>
            refine .bind around fun outer later grows scope => ?_
            split
            case isFalse => exact .pure fun _ further => scope.mono further
            case isTrue =>
              refine .bind (openNamespace_obeys isNamespace) fun opened last further found => ?_
              obtain ⟨isOpen, made⟩ := found
              have answer {final : UnitState} (grown : last.GrowsTo final) :
                  context.IsScopeOf final template
                    (.module_ (context.moduleIdentifier id)) :=
                .inl (isHome_module (grown.namespaces.subset isOpen))
              cases opened with
              | none => exact .pure fun _ grown => answer grown
              | some fragment =>
                  cases made fragment rfl
                  have isMade : context.IsMade last (context.moduleOf id outer) := by
                    exact .enclosing needed here isNamespace (scope.mono further)
                  exact .bind (.enqueue isMade) fun _ _ grown _ =>
                    .pure fun _ later => answer (grown.trans later)
          case h_6 => exact around
          all_goals
            rename_i isRecord
            exact scopeOfClass_obeys (by rw [isRecord]; rfl) here around

/-! ## Instantiations -/

theorem isBound_empty_eq_false {cppType : String}
    (unbound : context.isBound unit cppType = false) : context.isBound .empty cppType = false := by
  have grows : UnitState.empty.GrowsTo unit :=
    ⟨List.nil_prefix, List.nil_prefix, List.nil_suffix⟩
  rw [Bool.eq_false_iff] at unbound ⊢
  exact fun bound => unbound (isBound_mono bound grows)

theorem synthesize_obeys {template : DeclId} {cppType : String} {args : List String}
    (needed : context.Spells template args cppType)
    (admitted : context.admits template cppType args = true)
    (unbound : context.isBound .empty cppType = false) (base : Option String) :
    Obeys context unit (context.synthesize template cppType args base) fun _ _ => True := by
  unfold synthesize
  have inside : ∀ id, context.tree.semanticParent template = some id →
      context.tree.IsInside template id := fun id around => .single around
  refine .bind (ensureScopeTo_obeys needed _ inside) fun parent around grows scope => ?_
  refine .bind (.register _ _) fun bound registered further _ => ?_
  split
  · refine .andThen (builderCall_obeys template args) fun builder _ => ?_
    refine .andThen (.report _) fun _ _ => ?_
    exact .enqueue (.synthesized needed admitted unbound (scope.mono further))
  · exact .done

theorem bindBase_obeys {require : DeclId → String → List String → Gen (Option String)}
    {base : BaseClass}
    (requires : ∀ {template cppType args}, base = .instantiation template cppType args →
      Obeys context unit (require template cppType args) fun _ _ => True) :
    Obeys context unit (context.bindBase require base) fun _ _ => True := by
  cases base with
  | instantiation template cppType args => exact requires rfl
  | plain cppType decl =>
      have answer (excluded : Bool) : Obeys context unit
          (if excluded || (context.options.skip.mentionedIn cppType).isSome then pure none
            else pure (some cppType) : Gen (Option String)) fun _ _ => True := by
        split
        · exact .done
        · exact .done
      unfold bindBase
      dsimp only
      cases decl with
      | none => exact answer false
      | some id =>
          dsimp only
          split
          · exact answer true
          · exact bind_skipped_obeys (answer true) fun _ => answer false

theorem requireInstantiationTo_obeys {depth : Nat} {template : DeclId} {cppType : String}
    {args : List String} (needed : context.Spells template args cppType) :
    Obeys context unit (context.requireInstantiationTo depth template cppType args)
      fun _ _ => True := by
  induction depth using Nat.strong_induction_on generalizing unit template cppType args with
  | h depth ih =>
      unfold requireInstantiationTo
      refine .andThen (admitsInstantiation_obeys _ _ _) fun admitted same => ?_
      split
      case isTrue => exact .done
      case isFalse admits =>
        rw [same, Bool.not_eq_true', Bool.not_eq_false] at admits
        refine .bind .unit_ fun state later _ known => ?_
        subst known
        split
        case isTrue => exact .done
        case isFalse missing =>
          cases depth with
          | zero => exact fun _ _ _ _ _ run => by cases run
          | succ less =>
              -- The index stays what it is, so nothing of it is forgotten when types are bound
              -- later.
              have unbound := isBound_empty_eq_false (Bool.eq_false_iff.mpr missing)
              refine .andThen (.markGenerated cppType) fun _ _ => ?_
              have made (base : Option String) : Obeys context state (do
                  context.synthesize template cppType args base
                  return some cppType : Gen (Option String)) fun _ _ => True :=
                .andThen (synthesize_obeys needed admits unbound base) fun _ _ => .done
              cases derived : context.speller.instantiateBase? template args with
              | none => exact made none
              | some base =>
                  refine .andThen (bindBase_obeys fun {inner spelling written} isBase => ?_)
                    fun base _ => made base
                  subst isBase
                  exact ih less less.lt_succ_self
                    (.inl ⟨template, context.tree.parameterNames template, args, derived⟩)

theorem declaredBase_obeys {base : Option BaseClass}
    (spells : ∀ {template cppType args}, base = some (.instantiation template cppType args) →
      context.Spells template args cppType) :
    Obeys context unit (context.declaredBase base) fun _ _ => True := by
  cases base with
  | none => exact .done
  | some base =>
      refine bindBase_obeys fun isBase => ?_
      exact requireInstantiationTo_obeys (spells (congrArg some isBase))

theorem ensureInstantiation_obeys (type : TypeId) :
    Obeys context unit (context.ensureInstantiation type) fun _ _ => True := by
  unfold ensureInstantiation
  split
  case h_1 template cppType args named =>
    exact .andThen (requireInstantiationTo_obeys (.inr (.inr ⟨type, named⟩))) fun _ _ => .done
  case h_2 => exact .done

theorem signature_obeys (function : DeclId) (inTemplate : Bool) :
    Obeys context unit (context.signature function inTemplate) fun _ result =>
      ∀ signature ∈ result, context.HasSignature function signature := by
  unfold signature
  split
  case h_1 refusal _ =>
    dsimp only
    split
    · exact .andThen (.report _) fun _ _ => .pure fun _ _ => nofun
    · exact .pure fun _ _ => nofun
  case h_2 signature readable =>
    dsimp only
    refine bind_mentionsSkipped_obeys (.pure fun _ _ => nofun) fun unmentioned => ?_
    have has : ∀ found ∈ some signature, context.HasSignature function found := by
      intro found member
      cases Option.some.inj member
      exact ⟨readable, unmentioned⟩
    rw [if_neg Bool.false_ne_true]
    split
    · exact .andThen (.forM fun type _ => ensureInstantiation_obeys type) fun _ _ =>
        .pure fun _ _ => has
    · exact .pure fun _ _ => has

end UnitContext

end Bindery
