import Bindery.Proofs.Binding.Stops

/-!
# Walks

The traversal of a unit is a walk with a leg for each visit, in the order in which the visits begin.
What the legs give, one after the other, are the fragments of the unit.
-/

set_option autoImplicit false

namespace Bindery

/-! ## Legs -/

/-- One visit: the declaration and what it is attached to, the progress when the visit begins and
when it goes on, and what it comes to in between. -/
structure Leg where
  id : DeclId
  parent : Parent
  before : Progress
  stop : Stop
  between : Progress

namespace Leg

/-- What a leg adds to the unit: what waits when it goes on, and its own. -/
def fragments (leg : Leg) : List Fragment :=
  leg.between.unit.pending ++ leg.stop.fragments

/-- What a leg adds because of its declaration. -/
def declared (leg : Leg) : List Fragment :=
  leg.fragments.filter Fragment.isDeclared

end Leg

theorem filter_isDeclared_eq_nil {fragments : List Fragment}
    (onDemand : ∀ fragment ∈ fragments, fragment.isDeclared = false) :
    fragments.filter Fragment.isDeclared = [] :=
  List.filter_eq_nil_iff.mpr fun fragment member =>
    Bool.eq_false_iff.mp (onDemand fragment member)

namespace UnitContext

/-- Whether a leg takes place in a unit. -/
structure IsLeg (context : UnitContext) (leg : Leg) : Prop where
  accepted : context.accepts leg.id = true
  idle : leg.before.unit.pending = []
  run : (context.stopAt leg.id leg.parent).run leg.before = some (leg.stop, leg.between)

/-- What a class is bound as. -/
structure IsBindingOf (context : UnitContext) (id : DeclId) (parent : Parent)
    (binding : ClassBinding) : Prop where
  identifier : binding.identifier = Name.classIdentifier (context.tree.qualifiedName id)
  name : binding.name = context.options.namer.className (context.tree.decl id).spelling
    (context.tree.qualifiedName id)
  cppType : binding.cppType = context.tree.qualifiedName id
  parent : binding.parent = parent
  members : ∃ before after,
    (context.classMembers id (context.tree.qualifiedName id) false).run before =
      some ((binding.members, binding.aliases), after)

/-- How a leg comes out: the traversal does not enter the declaration, it enters a namespace or a
linkage specification, it binds a class and enters it, or the type or the identifier of a class is
taken. -/
inductive Outcome (context : UnitContext) (leg : Leg) : Prop
  | passed (closed : ¬ context.IsEntered leg.id) (inside : leg.stop.inside = [])
      (gives : context.GivesOwn leg.id leg.parent leg.declared)
  | opened (entered : context.IsEntered leg.id)
      (isScope : (context.tree.decl leg.id).kind = .namespaceDecl ∨
        (context.tree.decl leg.id).kind = .linkageSpec)
      (settled : leg.between.unit.pending = [])
      (inside : leg.stop.inside = context.tree.children leg.id)
      (nothing : leg.declared = [])
  | bound (binding : ClassBinding) (entered : context.IsEntered leg.id)
      (isClass : (context.tree.decl leg.id).kind = .classDecl ∨
        (context.tree.decl leg.id).kind = .structDecl)
      (settled : leg.between.unit.pending = [])
      (bound : leg.between.unit.identifierFor? (context.tree.qualifiedName leg.id) =
        some (Name.classIdentifier (context.tree.qualifiedName leg.id)))
      (inside : leg.stop.inside = nestedDeclarations context.tree leg.id)
      (gives : leg.declared = [.class_ binding])
      (made : context.IsBindingOf leg.id leg.parent binding)
  | taken (entered : context.IsEntered leg.id)
      (isClass : (context.tree.decl leg.id).kind = .classDecl ∨
        (context.tree.decl leg.id).kind = .structDecl)
      (taken : leg.before.unit.register?
        (Name.classIdentifier (context.tree.qualifiedName leg.id))
        (context.tree.qualifiedName leg.id) = none)
      (nothing : leg.fragments = []) (inside : leg.stop.inside = [])

section

variable {context : UnitContext} {leg : Leg}

theorem isEntered_namespace_iff {id : DeclId}
    (isNamespace : (context.tree.decl id).kind = .namespaceDecl) :
    context.IsEntered id ↔ (context.tree.decl id).anonymous = false ∧
      ((context.tree.decl id).has .isInlineNamespace = true ∨ context.skipRule? id = none) := by
  unfold IsEntered
  dsimp only
  rw [isNamespace]

theorem isEntered_linkage {id : DeclId}
    (isLinkage : (context.tree.decl id).kind = .linkageSpec) : context.IsEntered id := by
  unfold IsEntered
  dsimp only
  rw [isLinkage]
  trivial

theorem isEntered_class_iff {id : DeclId}
    (isClass : (context.tree.decl id).kind = .classDecl ∨
      (context.tree.decl id).kind = .structDecl) :
    context.IsEntered id ↔ (context.tree.decl id).anonymous = false ∧
      context.skipRule? id = none ∧ context.isExported id = true := by
  unfold IsEntered
  dsimp only
  rcases isClass with kind | kind <;> rw [kind]

theorem not_isEntered_of_kind {id : DeclId} {kind : DeclKind}
    (same : (context.tree.decl id).kind = kind)
    (leaf : kind ≠ .namespaceDecl ∧ kind ≠ .linkageSpec ∧ kind ≠ .classDecl ∧
      kind ≠ .structDecl) : ¬ context.IsEntered id := by
  unfold IsEntered
  dsimp only
  rw [same]
  cases kind with
  | namespaceDecl | linkageSpec | classDecl | structDecl => simp at leaf
  | _ => exact not_false

theorem declared_of_gathers {before : UnitState} (idle : before.pending = [])
    (gathers : before.Gathers leg.between.unit) :
    leg.declared = leg.stop.fragments.filter Fragment.isDeclared := by
  obtain ⟨-, more, pending, onDemand⟩ := gathers
  rw [Leg.declared, Leg.fragments, pending, idle, List.nil_append, List.filter_append,
    filter_isDeclared_eq_nil onDemand, List.nil_append]

theorem GivesOwn.answers_filter {id : DeclId} {parent : Parent} {step : Gen (List Fragment)}
    (gives : step.Answers (context.GivesOwn id parent)) :
    step.Answers fun produced =>
      context.GivesOwn id parent (produced.filter Fragment.isDeclared) := by
  intro before produced after run
  have own := gives _ _ _ run
  change context.GivesOwn id parent (produced.filter Fragment.isDeclared)
  rwa [List.filter_eq_self.mpr own.isDeclared]

theorem visitTypedef_gives (id : DeclId) (parent : Parent) :
    (context.visitTypedef id parent).Answers fun produced =>
      context.GivesOwn id parent (produced.filter Fragment.isDeclared) := by
  intro before produced after run
  rw [filter_isDeclared_eq_nil (visitTypedef_isOnDemand _ _ _ run)]
  exact .nothing

theorem stopWith_outcome {step : Gen (List Fragment)} (idle : leg.before.unit.pending = [])
    (gathers : step.Gathers)
    (gives : step.Answers fun produced =>
      context.GivesOwn leg.id leg.parent (produced.filter Fragment.isDeclared))
    (closed : ¬ context.IsEntered leg.id)
    (run : (stopWith leg.parent step).run leg.before = some (leg.stop, leg.between)) :
    leg.before.unit.Retains leg.between.unit ∧ context.Outcome leg := by
  obtain ⟨produced, between, stepRun, run⟩ := Gen.run_bind_eq_some run
  obtain ⟨stops, same⟩ := Gen.run_pure_eq_some run
  rw [← same] at stepRun
  have gathered := gathers _ _ _ stepRun
  refine ⟨gathered.retains, .passed closed (by rw [stops]) ?_⟩
  rw [declared_of_gathers idle gathered, stops]
  exact gives _ _ _ stepRun

theorem stopAtNamespace_outcome (idle : leg.before.unit.pending = [])
    (isNamespace : (context.tree.decl leg.id).kind = .namespaceDecl)
    (run : (context.stopAtNamespace leg.id leg.parent).run leg.before =
      some (leg.stop, leg.between)) :
    leg.before.unit.Retains leg.between.unit ∧ context.Outcome leg := by
  -- A namespace gives its module at most, and that is made on demand like those that wait.
  have passed (closed : ¬ context.IsEntered leg.id) (stops : leg.stop = ⟨[], [], leg.parent⟩)
      (gathers : leg.before.unit.Gathers leg.between.unit) : context.Outcome leg := by
    refine .passed closed (by rw [stops]) ?_
    rw [declared_of_gathers idle gathers, stops]
    exact .nothing
  have opened (entered : context.IsEntered leg.id) {fragments : List Fragment} {home : Parent}
      (settled : leg.between.unit.pending = [])
      (stops : leg.stop = ⟨fragments, context.tree.children leg.id, home⟩)
      (onDemand : ∀ fragment ∈ fragments, fragment.isDeclared = false)
      (gathers : leg.before.unit.Gathers leg.between.unit) : context.Outcome leg := by
    refine .opened entered (.inl isNamespace) settled (by rw [stops]) ?_
    rw [declared_of_gathers idle gathers, stops]
    exact filter_isDeclared_eq_nil onDemand
  have enters := isEntered_namespace_iff isNamespace
  unfold stopAtNamespace at run
  dsimp only at run
  split at run
  case isTrue unnamed =>
    obtain ⟨stops, same⟩ := Gen.run_pure_eq_some run
    exact ⟨same ▸ .rfl, passed (by rw [enters, unnamed]; exact nofun) stops (same ▸ .rfl)⟩
  case isFalse named =>
    rw [Bool.not_eq_true] at named
    split at run
    case isTrue isInline =>
      obtain ⟨stops, same⟩ := Gen.run_pure_eq_some run
      exact ⟨same ▸ .rfl, opened (enters.mpr ⟨named, .inl isInline⟩) (same ▸ idle) stops nofun
        (same ▸ .rfl)⟩
    case isFalse plain =>
      obtain ⟨skipped, asked, skipRun, run⟩ := Gen.run_bind_eq_some run
      have asks := Gen.Gathers.isCarried.skipped context leg.id _ _ _ skipRun
      have still := skipped_onlyReports leg.id _ _ _ skipRun
      have answer := context.skipped_answers leg.id _ _ _ skipRun
      split at run
      case isTrue skips =>
        obtain ⟨stops, same⟩ := Gen.run_pure_eq_some run
        rw [← same] at asks
        refine ⟨asks.retains, passed ?_ stops asks⟩
        rw [enters]
        rintro ⟨-, isInline | kept⟩
        · exact plain isInline
        · rw [answer, kept] at skips
          cases skips
      case isFalse kept =>
        rw [answer, Bool.not_eq_true, Option.isSome_eq_false_iff, Option.isNone_iff_eq_none] at kept
        obtain ⟨module, between, openRun, run⟩ := Gen.run_bind_eq_some run
        obtain ⟨stops, same⟩ := Gen.run_pure_eq_some run
        rw [← same] at openRun
        have entered := enters.mpr ⟨named, .inr kept⟩
        obtain ⟨-, rfl, known⟩ | ⟨-, ⟨name, rfl⟩, known⟩ := run_openNamespace openRun
        · rw [← known] at asks still
          exact ⟨asks.retains, opened entered (still ▸ idle) stops nofun asks⟩
        · have opens : leg.before.unit.Gathers leg.between.unit := by
            rw [known]
            exact asks.trans (.of_retains (.openModule _ _ _) rfl)
          have settled : leg.between.unit.pending = [] := by
            rw [known]
            exact still ▸ idle
          exact ⟨opens.retains,
            opened entered settled stops (List.forall_mem_singleton.mpr rfl) opens⟩

theorem filter_isDeclared_around {waiting : List Fragment}
    (onDemand : ∀ fragment ∈ waiting, fragment.isDeclared = false) {own : Fragment}
    (isDeclared : own.isDeclared = true) (stays : Fragment → Bool) :
    (waiting.takeWhile stays ++ own :: waiting.dropWhile stays).filter Fragment.isDeclared =
      [own] := by
  have before : (waiting.takeWhile stays).filter Fragment.isDeclared = [] :=
    filter_isDeclared_eq_nil fun fragment member =>
      onDemand fragment ((List.takeWhile_prefix stays).subset member)
  have behind : (waiting.dropWhile stays).filter Fragment.isDeclared = [] :=
    filter_isDeclared_eq_nil fun fragment member =>
      onDemand fragment ((List.dropWhile_suffix stays).subset member)
  rw [List.filter_append, before, List.filter_cons_of_pos isDeclared, behind, List.nil_append]

/-- A class whose type and identifier are free is bound. -/
theorem bindClass_outcome {start : Progress} {unit : UnitState}
    (idle : start.unit.pending = [])
    (isClass : (context.tree.decl leg.id).kind = .classDecl ∨
      (context.tree.decl leg.id).kind = .structDecl)
    (entered : context.IsEntered leg.id)
    (registered : start.unit.register? (Name.classIdentifier (context.tree.qualifiedName leg.id))
      (context.tree.qualifiedName leg.id) = some unit)
    (run : (do
      let cppType := context.tree.qualifiedName leg.id
      let identifier := Name.classIdentifier cppType
      let base ← context.declaredBase (context.speller.resolveBase? leg.id [] [])
      let opaqueClasses ← context.opaqueClasses leg.id
      let (members, aliases) ← context.classMembers leg.id cppType false
      let inside := Parent.class_ identifier
      let (before, behind) := (← Gen.takePending).span (·.parent != inside)
      let name := context.options.namer.className (context.tree.decl leg.id).spelling cppType
      return ⟨before
        ++ .class_ ⟨identifier, name, cppType, base, leg.parent, opaqueClasses, members, aliases⟩
        :: behind, nestedDeclarations context.tree leg.id, inside⟩ : Gen Stop).run
          (start.withUnit unit) = some (leg.stop, leg.between)) :
    unit.Retains leg.between.unit ∧ context.Outcome leg := by
  obtain ⟨base, based, baseRun, run⟩ := Gen.run_bind_eq_some run
  have bases := Gen.Gathers.isCarried.declaredBase context _ _ _ _ baseRun
  obtain ⟨opaqueClasses, declared, opaqueRun, run⟩ := Gen.run_bind_eq_some run
  have declares := Gen.Gathers.isCarried.opaqueClasses Gen.Gathers.isCarried.register
    _ _ _ opaqueRun
  obtain ⟨⟨members, aliases⟩, filled, memberRun, run⟩ := Gen.run_bind_eq_some run
  have fills := Gen.Gathers.isCarried.members context _ _ _ _ _ _ memberRun
  obtain ⟨waiting, taken, takeRun, run⟩ := Gen.run_bind_eq_some run
  rw [Gen.run_takePending] at takeRun
  cases Option.some.inj takeRun
  dsimp only at run
  rw [List.span_eq_takeWhile_dropWhile] at run
  obtain ⟨stops, same⟩ := Gen.run_pure_eq_some run
  obtain ⟨retained, more, pending, onDemand⟩ := bases.trans (declares.trans fills)
  have retains : unit.Retains leg.between.unit := by
    rw [same]
    exact retained.trans (.of_eq (.of_eq rfl rfl rfl) rfl)
  have nothing : unit.pending = [] := by
    obtain ⟨-, -, rfl⟩ := UnitState.register?_eq_some registered
    exact idle
  refine ⟨retains, .bound ⟨_, _, _, base, _, opaqueClasses, members, aliases⟩ entered isClass
    (by rw [same]; rfl) ?_ (by rw [stops]) ?_ ⟨rfl, rfl, rfl, rfl, _, _, memberRun⟩⟩
  · exact retains.growsTo.identifierFor?_eq_some (UnitState.identifierFor?_of_register registered)
  · have queue : filled.unit.pending = more := by
      rw [pending]
      exact congrArg (· ++ more) nothing
    rw [Leg.declared, Leg.fragments, same, stops, queue]
    exact filter_isDeclared_around onDemand rfl _

theorem stopAtClass_outcome (idle : leg.before.unit.pending = [])
    (isClass : (context.tree.decl leg.id).kind = .classDecl ∨
      (context.tree.decl leg.id).kind = .structDecl)
    (run : (context.stopAtClass leg.id leg.parent).run leg.before =
      some (leg.stop, leg.between)) :
    leg.before.unit.Retains leg.between.unit ∧ context.Outcome leg := by
  have passed (closed : ¬ context.IsEntered leg.id) (stops : leg.stop = ⟨[], [], leg.parent⟩)
      (same : leg.between.unit = leg.before.unit) :
      leg.before.unit.Retains leg.between.unit ∧ context.Outcome leg := by
    refine ⟨same ▸ .rfl, .passed closed (by rw [stops]) ?_⟩
    rw [declared_of_gathers idle (same ▸ .rfl), stops]
    exact .nothing
  have enters := isEntered_class_iff isClass
  unfold stopAtClass at run
  dsimp only at run
  split at run
  case isTrue unnamed =>
    obtain ⟨stops, same⟩ := Gen.run_pure_eq_some run
    refine passed ?_ stops (congrArg Progress.unit same)
    rw [enters, unnamed]
    exact nofun
  case isFalse named =>
    rw [Bool.not_eq_true] at named
    obtain ⟨skipped, asked, skipRun, run⟩ := Gen.run_bind_eq_some run
    have asks := skipped_onlyReports leg.id _ _ _ skipRun
    have answer := context.skipped_answers leg.id _ _ _ skipRun
    split at run
    case isTrue skips =>
      obtain ⟨stops, same⟩ := Gen.run_pure_eq_some run
      refine passed ?_ stops (same ▸ asks)
      rw [enters]
      rintro ⟨-, kept, -⟩
      rw [answer, kept] at skips
      cases skips
    case isFalse kept =>
      rw [answer, Bool.not_eq_true, Option.isSome_eq_false_iff, Option.isNone_iff_eq_none] at kept
      obtain ⟨exported, shown, exportRun, run⟩ := Gen.run_bind_eq_some run
      have shows := (exported_onlyReports leg.id _ _ _ exportRun).trans asks
      have visible := exported_answers leg.id _ _ _ exportRun
      split at run
      case isTrue hidden =>
        obtain ⟨stops, same⟩ := Gen.run_pure_eq_some run
        refine passed ?_ stops (same ▸ shows)
        rw [enters]
        rintro ⟨-, -, isExported⟩
        rw [visible, isExported] at hidden
        cases hidden
      case isFalse isShown =>
        rw [visible, Bool.not_eq_true', Bool.not_eq_false] at isShown
        have entered := enters.mpr ⟨named, kept, isShown⟩
        obtain ⟨bound, registered, registerRun, run⟩ := Gen.run_bind_eq_some run
        obtain ⟨unit, rfl, registration, rfl⟩ | ⟨rfl, refused, rfl⟩ :=
          Gen.run_register_eq_some registerRun
        · obtain ⟨retains, outcome⟩ :=
            bindClass_outcome (shows ▸ idle) isClass entered registration run
          exact ⟨(UnitState.Retains.of_register (shows ▸ registration)).trans retains, outcome⟩
        · obtain ⟨stops, same⟩ := Gen.run_pure_eq_some run
          have unchanged : leg.between.unit = leg.before.unit := same ▸ shows
          refine ⟨unchanged ▸ .rfl, .taken entered isClass (shows ▸ refused) ?_ (by rw [stops])⟩
          rw [Leg.fragments, unchanged, idle, stops]
          rfl

theorem visitClassTemplate_gathers (id : DeclId) :
    (do
      context.visitClassTemplate id
      return [] : Gen (List Fragment)).Gathers := by
  have rules := Gen.Gathers.isCarried
  have gathers := rules.visitClassTemplate (fun _ => rules.members context id _ true)
    fun _ _ => .of_isQuiet (.addBuilder _ _)
  exact rules.bind gathers fun _ => rules.pure _

/-- A declaration without others inside comes out as its own visitor does. -/
theorem IsLeg.outcome (isLeg : context.IsLeg leg) :
    leg.before.unit.Retains leg.between.unit ∧ context.Outcome leg := by
  obtain ⟨-, idle, run⟩ := isLeg
  have rules := Gen.Gathers.isCarried
  have leaf {kind : DeclKind} (same : (context.tree.decl leg.id).kind = kind)
      (plain : kind ≠ .namespaceDecl ∧ kind ≠ .linkageSpec ∧ kind ≠ .classDecl ∧
        kind ≠ .structDecl) {step : Gen (List Fragment)} (gathers : step.Gathers)
      (gives : step.Answers fun produced =>
        context.GivesOwn leg.id leg.parent (produced.filter Fragment.isDeclared)) :=
    stopWith_outcome idle gathers gives (not_isEntered_of_kind same plain)
  unfold stopAt at run
  split at run
  case h_1 isNamespace => exact stopAtNamespace_outcome idle isNamespace run
  case h_2 isLinkage =>
    obtain ⟨stops, same⟩ := Gen.run_pure_eq_some run
    refine ⟨same ▸ .rfl, .opened (isEntered_linkage isLinkage) (.inr isLinkage) (same ▸ idle)
      (by rw [stops]) ?_⟩
    rw [declared_of_gathers idle (same ▸ .rfl), stops]
    rfl
  case h_3 isClass => exact stopAtClass_outcome idle (.inl isClass) run
  case h_4 isStruct => exact stopAtClass_outcome idle (.inr isStruct) run
  case h_5 isTemplate =>
    exact leaf isTemplate (by decide) (visitClassTemplate_gathers leg.id)
      (.andThen fun _ => .pure .nothing) run
  case h_6 isEnum =>
    exact leaf isEnum (by decide) (rules.visitEnum rules.register)
      (.answers_filter (visitEnum_gives isEnum)) run
  case h_7 isFunction =>
    exact leaf isFunction (by decide)
      (rules.visitFunction (fun operator => .of_isQuiet (.pushOperator operator)) fun _ =>
        rules.anySignature context leg.id false)
      (.answers_filter (visitFunction_gives isFunction)) run
  case h_8 isVariable =>
    exact leaf isVariable (by decide) (rules.visitVariable context leg.id leg.parent)
      (.answers_filter (visitVariable_gives isVariable)) run
  case h_9 isTypedef =>
    exact leaf isTypedef (by decide) (rules.anyTypedef context leg.id leg.parent)
      (visitTypedef_gives leg.id leg.parent) run
  case h_10 isAlias =>
    exact leaf isAlias (by decide) (rules.anyTypedef context leg.id leg.parent)
      (visitTypedef_gives leg.id leg.parent) run
  case h_11 notNamespace notLinkage notClass notStruct _ _ _ _ _ _ =>
    obtain ⟨stops, same⟩ := Gen.run_pure_eq_some run
    refine ⟨same ▸ .rfl, .passed ?_ (by rw [stops]) ?_⟩
    · exact not_isEntered_of_kind rfl ⟨notNamespace, notLinkage, notClass, notStruct⟩
    · rw [declared_of_gathers idle (same ▸ .rfl), stops]
      exact .nothing

/-! ## Builders -/

/-- Whether a builder has the members of a class template. -/
def IsBuiltFrom (context : UnitContext) (id : DeclId) (builder : Builder) : Prop :=
  (context.tree.decl id).kind = .classTemplate ∧
    builder.cppType = context.tree.qualifiedDisplayName id ∧
    ∃ before after,
      (context.classMembers id (context.tree.qualifiedDisplayName id) true).run before =
        some ((builder.members, builder.aliases), after)

theorem visitClassTemplate_builds {id : DeclId}
    (isTemplate : (context.tree.decl id).kind = .classTemplate) :
    (context.visitClassTemplate id).Builds (context.IsBuiltFrom id) := by
  have rules := @Gen.Builds.isCarried (context.IsBuiltFrom id)
  unfold visitClassTemplate
  refine rules.bind (rules.skipped context id) fun skipped => ?_
  split
  case isTrue => exact rules.pure _
  case isFalse =>
    refine rules.bind (rules.exported context id) fun exported => ?_
    split
    case isFalse => exact rules.pure _
    case isTrue =>
      intro before value after run builder member
      obtain ⟨⟨members, aliases⟩, filled, memberRun, run⟩ := Gen.run_bind_eq_some run
      have earlier := rules.members context _ _ _ _ _ _ memberRun builder
      dsimp only at run
      split at run
      case isTrue =>
        rw [Gen.run_change] at run
        obtain ⟨-, rfl⟩ := Prod.mk.inj (Option.some.inj run)
        rcases List.mem_append.mp member with present | new
        · exact earlier present
        · obtain rfl := List.mem_singleton.mp new
          exact .inr ⟨isTemplate, rfl, _, _, memberRun⟩
      case isFalse =>
        obtain ⟨-, rfl⟩ := Gen.run_pure_eq_some run
        exact earlier member

theorem stopAt_builds (id : DeclId) (parent : Parent) :
    (context.stopAt id parent).Builds (context.IsBuiltFrom id) := by
  have rules := @Gen.Builds.isCarried (context.IsBuiltFrom id)
  have takes : Gen.takePending.Builds (context.IsBuiltFrom id) := by
    intro before waiting after run builder member
    rw [Gen.run_takePending] at run
    cases Option.some.inj run
    exact .inl member
  refine rules.stopAt takes (fun isTemplate => visitClassTemplate_builds isTemplate) fun _ => ?_
  exact rules.visitFunction (fun _ => .change fun _ _ => .inl) fun _ =>
    rules.anySignature context id false

/-! ## Walks -/

/-- A leg goes on with those that come next in the order of the traversal, if with any. -/
theorem IsLeg.sublist_visitOrderTo (isLeg : context.IsLeg leg) (depth : Nat) :
    (leg.id :: (leg.stop.inside.filter context.accepts).flatMap
      (context.visitOrderTo depth)).Sublist (context.visitOrderTo (depth + 1) leg.id) := by
  have nothing (inside : leg.stop.inside = []) : (leg.id ::
      (leg.stop.inside.filter context.accepts).flatMap
        (context.visitOrderTo depth)).Sublist (context.visitOrderTo (depth + 1) leg.id) := by
    rw [inside, visitOrderTo]
    split <;> simp
  obtain ⟨-, outcome⟩ := isLeg.outcome
  cases outcome with
  | passed _ inside => exact nothing inside
  | opened _ isScope _ inside =>
      rw [inside, visitOrderTo]
      rcases isScope with kind | kind <;> rw [kind]
  | bound _ _ isClass _ _ inside =>
      rw [inside, visitOrderTo]
      rcases isClass with kind | kind <;> rw [kind]
  | taken _ _ _ _ inside => exact nothing inside

/-- Nothing waits when a leg goes on with anything. -/
theorem IsLeg.settled (isLeg : context.IsLeg leg) :
    leg.stop.inside = [] ∨ leg.between.unit.pending = [] := by
  obtain ⟨-, outcome⟩ := isLeg.outcome
  cases outcome with
  | passed _ inside => exact .inl inside
  | opened _ _ settled => exact .inr settled
  | bound _ _ _ settled => exact .inr settled
  | taken _ _ _ _ inside => exact .inl inside

/-- What a leg goes on with are children of its declaration, which the traversal enters. -/
theorem IsLeg.entered (isLeg : context.IsLeg leg) {id : DeclId}
    (member : id ∈ leg.stop.inside) :
    context.IsEntered leg.id ∧ id ∈ context.tree.children leg.id := by
  obtain ⟨-, outcome⟩ := isLeg.outcome
  cases outcome with
  | passed _ inside =>
      rw [inside] at member
      cases member
  | opened entered _ _ inside => exact ⟨entered, inside ▸ member⟩
  | bound _ entered _ _ _ inside =>
      exact ⟨entered, mem_children_of_mem_nestedDeclarations (inside ▸ member)⟩
  | taken _ _ _ _ inside =>
      rw [inside] at member
      cases member

/-- A walk through declarations with a common parent: those that take part have their legs in
order, each followed by a walk through those that it goes on with. -/
inductive Walks (context : UnitContext) :
    List DeclId → Parent → Progress → List Leg → Progress → Prop
  | nil {parent : Parent} {progress : Progress} : Walks context [] parent progress [] progress
  | skip {id : DeclId} {ids : List DeclId} {parent : Parent} {before after : Progress}
      {legs : List Leg} (rejected : context.accepts id = false)
      (rest : Walks context ids parent before legs after) :
      Walks context (id :: ids) parent before legs after
  | leg {leg : Leg} {ids : List DeclId} {inner later : List Leg} {middle after : Progress}
      (isLeg : context.IsLeg leg)
      (inside : Walks context leg.stop.inside leg.stop.home leg.between.release inner middle)
      (rest : Walks context ids leg.parent middle later after) :
      Walks context (leg.id :: ids) leg.parent leg.before (leg :: inner ++ later) after

/-- A visitor all of whose work is a leg and a walk inside, in the given order. -/
def GoesInLegs (context : UnitContext) (order : DeclId → List DeclId)
    (visit : DeclId → Parent → Gen (List Fragment)) : Prop :=
  ∀ {id parent before produced after}, context.accepts id = true → before.unit.pending = [] →
    (visit id parent).run before = some (produced, after) →
    ∃ stop between inner, context.IsLeg ⟨id, parent, before, stop, between⟩ ∧
      context.Walks stop.inside stop.home between.release inner after.release ∧
      after.unit.pending ++ produced =
        (⟨id, parent, before, stop, between⟩ :: inner).flatMap Leg.fragments ∧
      (id :: inner.map (·.id)).Sublist (order id)

theorem walks_of_visitAll {visit : DeclId → Parent → Gen (List Fragment)}
    {order : DeclId → List DeclId} (takes : context.GoesInLegs order visit) (ids : List DeclId)
    {parent : Parent} {before after : Progress} {produced : List Fragment}
    (idle : before.unit.pending = [])
    (run : (context.visitAll visit ids parent).run before = some (produced, after)) :
    ∃ legs, context.Walks ids parent before legs after ∧
      produced = legs.flatMap Leg.fragments ∧
      (legs.map (·.id)).Sublist ((ids.filter context.accepts).flatMap order) := by
  induction ids generalizing before produced with
  | nil =>
      obtain ⟨rfl, rfl⟩ := Gen.run_pure_eq_some run
      exact ⟨[], .nil, rfl, List.nil_sublist _⟩
  | cons id ids ih =>
      cases accepted : context.accepts id with
      | false =>
          rw [visitAll_cons_of_not_accepts ids accepted] at run
          obtain ⟨legs, walks, told, inOrder⟩ := ih idle run
          rw [List.filter_cons_of_neg (Bool.eq_false_iff.mp accepted)]
          exact ⟨legs, .skip accepted walks, told, inOrder⟩
      | true =>
          rw [visitAll_cons ids accepted] at run
          obtain ⟨own, visited, visitRun, run⟩ := Gen.run_bind_eq_some run
          obtain ⟨waiting, released, takeRun, run⟩ := Gen.run_bind_eq_some run
          obtain ⟨others, last, laterRun, run⟩ := Gen.run_bind_eq_some run
          obtain ⟨rfl, rfl⟩ := Gen.run_pure_eq_some run
          rw [Gen.run_takePending] at takeRun
          cases Option.some.inj takeRun
          obtain ⟨stop, between, inner, isLeg, inside, told, inOrder⟩ :=
            takes accepted idle visitRun
          obtain ⟨later, walks, rest, behind⟩ := ih rfl laterRun
          refine ⟨_, .leg isLeg inside walks, ?_, ?_⟩
          · rw [told, rest, List.flatMap_append]
          · rw [List.filter_cons_of_pos accepted, List.flatMap_cons, List.map_append]
            exact inOrder.append behind

theorem visitTo_goesInLegs (depth : Nat) :
    context.GoesInLegs (context.visitOrderTo depth) (context.visitTo depth) := by
  induction depth with
  | zero =>
      intro id parent before produced after _ _ run
      cases run
  | succ depth ih =>
      intro id parent before produced after accepted idle run
      rw [visitTo_succ] at run
      obtain ⟨stop, between, stopRun, run⟩ := Gen.run_bind_eq_some run
      obtain ⟨inside, last, insideRun, run⟩ := Gen.run_bind_eq_some run
      obtain ⟨rfl, rfl⟩ := Gen.run_pure_eq_some run
      have isLeg : context.IsLeg ⟨id, parent, before, stop, between⟩ := ⟨accepted, idle, stopRun⟩
      have inOrder := isLeg.sublist_visitOrderTo depth
      refine ⟨stop, between, ?_⟩
      rcases isLeg.settled with isLeaf | settled
      · change stop.inside = [] at isLeaf
        rw [isLeaf] at insideRun inOrder ⊢
        obtain ⟨rfl, rfl⟩ := Gen.run_pure_eq_some insideRun
        refine ⟨[], isLeg, .nil, ?_, inOrder⟩
        change after.unit.pending ++ (stop.fragments ++ []) = _
        rw [List.append_nil, List.flatMap_singleton, Leg.fragments]
      · change between.unit.pending = [] at settled
        obtain ⟨inner, walks, rfl, behind⟩ := walks_of_visitAll ih _ settled insideRun
        have nothing := visitAll_staysIdle _ settled insideRun
        refine ⟨inner, isLeg, ?_, ?_, (behind.cons_cons id).trans inOrder⟩
        · rwa [Progress.release_of_pending_eq_nil settled,
            Progress.release_of_pending_eq_nil nothing]
        · rw [nothing, List.flatMap_cons, Leg.fragments, settled]
          rfl

section

variable {ids : List DeclId} {parent : Parent} {before after : Progress} {legs : List Leg}
  (walks : context.Walks ids parent before legs after)
include walks

theorem Walks.isLeg : ∀ leg ∈ legs, context.IsLeg leg := by
  induction walks with
  | nil => exact nofun
  | skip _ _ ih => exact ih
  | leg isLeg _ _ ihInside ihRest =>
      exact List.forall_mem_append.mpr ⟨List.forall_mem_cons.mpr ⟨isLeg, ihInside⟩, ihRest⟩

/-- What a leg leaves behind is still known at the end of the walk. -/
theorem Walks.retains :
    before.unit.Retains after.unit ∧
      ∀ leg ∈ legs, leg.between.unit.Retains after.unit := by
  induction walks with
  | nil => exact ⟨.rfl, nofun⟩
  | skip _ _ ih => exact ih
  | @leg leg _ _ _ _ _ isLeg _ _ ihInside ihRest =>
      obtain ⟨retains, -⟩ := isLeg.outcome
      have released : leg.between.unit.Retains leg.between.release.unit :=
        .of_eq (.of_eq rfl rfl rfl) rfl
      have here := released.trans (ihInside.1.trans ihRest.1)
      refine ⟨retains.trans here, List.forall_mem_append.mpr
        ⟨List.forall_mem_cons.mpr ⟨here, fun other member => ?_⟩, ihRest.2⟩⟩
      exact (ihInside.2 other member).trans ihRest.1

/-- Whatever takes part has a leg, be it among those that the walk is through or among those that a
leg goes on with. -/
theorem Walks.exists_leg :
    (∀ id ∈ ids, context.accepts id = true → ∃ leg ∈ legs, leg.id = id) ∧
      ∀ leg ∈ legs, ∀ id ∈ leg.stop.inside, context.accepts id = true →
        ∃ inner ∈ legs, inner.id = id := by
  induction walks with
  | nil => exact ⟨nofun, nofun⟩
  | skip rejected _ ih =>
      refine ⟨List.forall_mem_cons.mpr ⟨fun accepted => ?_, ih.1⟩, ih.2⟩
      rw [rejected] at accepted
      cases accepted
  | @leg leg ids inner later _ _ _ _ _ ihInside ihRest =>
      have inLeg {id : DeclId} (found : ∃ other ∈ inner, other.id = id) :
          ∃ other ∈ leg :: inner ++ later, other.id = id := by
        obtain ⟨other, member, same⟩ := found
        exact ⟨other, List.mem_append_left _ (List.mem_cons_of_mem _ member), same⟩
      have inRest {id : DeclId} (found : ∃ other ∈ later, other.id = id) :
          ∃ other ∈ leg :: inner ++ later, other.id = id := by
        obtain ⟨other, member, same⟩ := found
        exact ⟨other, List.mem_append_right _ member, same⟩
      refine ⟨List.forall_mem_cons.mpr ⟨fun _ => ?_, fun id member accepted => ?_⟩,
        List.forall_mem_append.mpr ⟨List.forall_mem_cons.mpr ⟨fun id member accepted => ?_,
          fun other among id member accepted => ?_⟩, fun other among id member accepted => ?_⟩⟩
      · exact ⟨leg, List.mem_append_left _ List.mem_cons_self, rfl⟩
      · exact inRest (ihRest.1 id member accepted)
      · exact inLeg (ihInside.1 id member accepted)
      · exact inLeg (ihInside.2 other among id member accepted)
      · exact inRest (ihRest.2 other among id member accepted)

theorem Walks.isVisited
    (visited : ∀ id ∈ ids, context.accepts id = true → context.IsVisited id) :
    ∀ leg ∈ legs, context.IsVisited leg.id := by
  induction walks with
  | nil => exact nofun
  | skip _ _ ih => exact ih (List.forall_mem_cons.mp visited).2
  | leg isLeg _ _ ihInside ihRest =>
      obtain ⟨here, others⟩ := List.forall_mem_cons.mp visited
      have own := here isLeg.accepted
      refine List.forall_mem_append.mpr
        ⟨List.forall_mem_cons.mpr ⟨own, ihInside fun id member accepted => ?_⟩, ihRest others⟩
      obtain ⟨entered, child⟩ := isLeg.entered member
      exact .inside own entered child accepted

end

/-- Each builder that a walk makes is one of a class template that has a leg. -/
theorem Walks.builds {ids : List DeclId} {parent : Parent} {before after : Progress}
    {legs : List Leg} (walks : context.Walks ids parent before legs after) :
    ∀ builder ∈ after.unit.builders, builder ∈ before.unit.builders ∨
      ∃ leg ∈ legs, context.IsBuiltFrom leg.id builder := by
  induction walks with
  | nil => exact fun builder => .inl
  | skip _ _ ih => exact ih
  | @leg leg _ inner later _ _ isLeg _ _ ihInside ihRest =>
      intro builder member
      rcases ihRest builder member with middle | ⟨other, among, built⟩
      · rcases ihInside builder middle with between | ⟨other, among, built⟩
        · rcases stopAt_builds _ _ _ _ _ isLeg.run builder between with earlier | built
          · exact .inl earlier
          · exact .inr ⟨leg, List.mem_append_left _ List.mem_cons_self, built⟩
        · exact .inr ⟨other, List.mem_append_left _ (List.mem_cons_of_mem _ among), built⟩
      · exact .inr ⟨other, List.mem_append_right _ among, built⟩

/-- The traversal of a unit is a walk through what its root holds. -/
theorem walks_of_visitUnit {fragments : List Fragment} {progress : Progress}
    (run : context.visitUnit.run ⟨UnitState.empty, []⟩ = some (fragments, progress)) :
    ∃ legs, context.Walks (context.tree.children DeclTree.root) .global ⟨UnitState.empty, []⟩
        legs progress ∧
      fragments = legs.flatMap Leg.fragments ∧
      (legs.map (·.id)).Sublist context.visitOrder :=
  walks_of_visitAll (visitTo_goesInLegs context.tree.size) _ rfl run

/-- Where the members of a class that is bound come from, and those of a builder. -/
theorem exists_members_of_visitUnit {fragments : List Fragment} {progress : Progress}
    (run : context.visitUnit.run ⟨UnitState.empty, []⟩ = some (fragments, progress)) :
    (∀ binding, .class_ binding ∈ fragments → ∃ id, context.IsVisited id ∧
      ((context.tree.decl id).kind = .classDecl ∨ (context.tree.decl id).kind = .structDecl) ∧
      binding.cppType = context.tree.qualifiedName id ∧ ∃ before after,
        (context.classMembers id binding.cppType false).run before =
          some ((binding.members, binding.aliases), after)) ∧
    ∀ builder ∈ progress.unit.builders, ∃ id, context.IsVisited id ∧
      (context.tree.decl id).kind = .classTemplate ∧
      builder.cppType = context.tree.qualifiedDisplayName id ∧ ∃ before after,
        (context.classMembers id builder.cppType true).run before =
          some ((builder.members, builder.aliases), after) := by
  obtain ⟨legs, walks, rfl, -⟩ := walks_of_visitUnit run
  have visited := walks.isVisited fun id member accepted => .top member accepted
  constructor
  · intro binding member
    obtain ⟨leg, among, given⟩ := List.mem_flatMap.mp member
    have declared : Fragment.class_ binding ∈ leg.declared := List.mem_filter.mpr ⟨given, rfl⟩
    obtain ⟨-, outcome⟩ := (walks.isLeg leg among).outcome
    cases outcome with
    | passed _ _ gives =>
        generalize leg.declared = own at gives declared
        cases gives with
        | values => simp at declared
        | nothing | enum | function | constant | variable_ => simp at declared
    | opened _ _ _ _ nothing =>
        rw [nothing] at declared
        cases declared
    | bound own _ isClass _ _ _ gives made =>
        rw [gives, List.mem_singleton] at declared
        cases declared
        refine ⟨leg.id, visited leg among, isClass, made.cppType, ?_⟩
        rw [made.cppType]
        exact made.members
    | taken _ _ _ nothing =>
        rw [nothing] at given
        cases given
  · intro builder member
    rcases walks.builds builder member with none | ⟨leg, among, isTemplate, cppType, made⟩
    · cases none
    · refine ⟨leg.id, visited leg among, isTemplate, cppType, ?_⟩
      rw [cppType]
      exact made

end

end UnitContext

end Bindery
