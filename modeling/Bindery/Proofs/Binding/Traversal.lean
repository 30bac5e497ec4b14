import Bindery.Binding.Generator
import Bindery.Proofs.Binding.Members
import Bindery.Tree.Build
import Mathlib.Data.List.ReduceOption

/-!
# Traversal by steps

A visitor that is sent to a declaration with nothing pending leaves a draft in which all that waited
and then all that it produced has found its place.  The whole unit is reached from the empty draft
by steps, and nothing waits at its end.
-/

set_option autoImplicit false

namespace Bindery

open Draft

/-! ## Fragments that define nothing -/

/-- The fragments are attached to a parent and define nothing. -/
def AreLoose (parent : Parent) (fragments : List Fragment) : Prop :=
  ∀ fragment ∈ fragments, fragment.IsLoose ∧ fragment.parent = parent

theorem areLoose_nil (parent : Parent) : AreLoose parent [] :=
  nofun

theorem areLoose_singleton {parent : Parent} {fragment : Fragment} (loose : fragment.IsLoose)
    (attached : fragment.parent = parent) : AreLoose parent [fragment] := by
  intro other member
  cases List.mem_singleton.mp member
  exact ⟨loose, attached⟩

/-- A computation by steps whose answer is attached to a parent and defines nothing. -/
structure Gen.Appends (context : UnitContext) (parent : Parent) (step : Gen (List Fragment)) :
    Prop where
  follows : step.Follows context
  loose : ∀ {before fragments after}, step.run before = some (fragments, after) →
    AreLoose parent fragments

namespace Gen.Appends

variable {context : UnitContext} {parent : Parent}

theorem pure {fragments : List Fragment} (loose : AreLoose parent fragments) :
    Appends context parent (Pure.pure fragments) := by
  refine ⟨.pure fragments, fun run => ?_⟩
  obtain ⟨rfl, -⟩ := run_pure_eq_some run
  exact loose

theorem nil : Appends context parent (Pure.pure []) :=
  pure (areLoose_nil parent)

theorem bind {α : Type} {first : Gen α} {rest : α → Gen (List Fragment)}
    (follows : first.Follows context) (appends : ∀ value, (rest value).Appends context parent) :
    (first >>= rest).Appends context parent := by
  refine ⟨.bind follows fun value => (appends value).follows, fun run => ?_⟩
  obtain ⟨value, between, -, restRun⟩ := run_bind_eq_some run
  exact (appends value).loose restRun

end Gen.Appends

namespace Gen

/-- From the draft, what waits at the end of a computation and what it answers find their places by
steps. -/
def Places (context : UnitContext) (draft : Draft) (step : Gen (List Fragment)) : Prop :=
  ∀ (produced : List Fragment) (progress : Progress),
    step.run draft.progress = some (produced, progress) →
    Steps context draft ((draft.advance progress).place produced)

namespace Places

variable {context : UnitContext} {draft : Draft} {parent : Parent}

theorem of_appends {step : Gen (List Fragment)} (ready : context.IsReady draft parent)
    (appends : step.Appends context parent) : step.Places context draft := by
  intro produced progress run
  obtain ⟨idle, -, scope⟩ := ready
  have steps := appends.follows draft produced progress idle.asking run
  refine steps.tail (.placeLoose produced
    ⟨idle.promised, idle.home, idle.owner, idle.seeking⟩ ?_)
  intro fragment member
  obtain ⟨loose, attached⟩ := appends.loose run fragment member
  rw [attached]
  exact ⟨loose, scope.mono (Steps.growsTo steps)⟩

theorem nil (ready : context.IsReady draft parent) : Places context draft (pure []) :=
  of_appends ready .nil

theorem afterQuiet {α : Type} {first : Gen α} {rest : α → Gen (List Fragment)}
    (ready : context.IsReady draft parent) (quiet : first.IsQuiet)
    (places : ∀ value between, context.IsReady (draft.advance between) parent →
      (rest value).Places context (draft.advance between)) :
    (first >>= rest).Places context draft := by
  intro produced progress run
  obtain ⟨value, between, firstRun, restRun⟩ := run_bind_eq_some run
  have noted := quiet _ _ _ firstRun
  exact .trans (.single (.note noted)) (places value between (ready.advance noted) _ _ restRun)

/-- A binding that is refused leaves nothing to be placed. -/
theorem afterRegister {identifier cppType : String} {bind : Gen (List Fragment)}
    (ready : context.IsReady draft parent)
    (binds : ∀ unit produced progress, draft.unit.register? identifier cppType = some unit →
      bind.run (draft.progress.withUnit unit) = some (produced, progress) →
      Steps context draft ((draft.advance progress).place produced)) :
    Places context draft (do
      if ← Gen.register identifier cppType then
        bind
      else
        return []) := by
  intro produced progress run
  obtain ⟨bound, registered, registerRun, run⟩ := run_bind_eq_some run
  obtain ⟨unit, rfl, registration, rfl⟩ | ⟨rfl, -, rfl⟩ := run_register_eq_some registerRun
  · exact binds unit produced progress registration run
  · have noted := Progress.Quiet.report draft.progress
      (collisionEvents draft.unit identifier cppType)
    exact .trans (.single (.note noted)) (nil (ready.advance noted) _ _ run)

end Places

end Gen

namespace UnitContext

variable {context : UnitContext}

theorem visitFunction_appends (id : DeclId) (parent : Parent) :
    (context.visitFunction id parent).Appends context parent := by
  unfold visitFunction
  refine .bind (.of_isQuiet (context.skipped_isQuiet id)) fun skipped => ?_
  split
  · exact .nil
  · refine .bind (.of_isQuiet (context.exported_isQuiet id)) fun exported => ?_
    split
    · exact .nil
    · split
      · have push (operator : FreeOperator) :
            Gen.Follows context (Gen.change (·.pushOperator operator)) :=
          .of_isQuiet (.pushOperator operator)
        exact .bind (Gen.Follows.isInherited.visitOperator context push id) fun _ => .nil
      · refine .bind (context.signature_follows id false) fun signature => ?_
        split
        · exact .nil
        · exact .pure (areLoose_singleton rfl rfl)

theorem visitVariable_appends (id : DeclId) (parent : Parent) :
    (context.visitVariable id parent).Appends context parent := by
  unfold visitVariable
  refine .bind (.of_isQuiet (context.skipped_isQuiet id)) fun skipped => ?_
  split
  · exact .nil
  · dsimp only
    split
    · exact .nil
    · refine .bind (.of_isQuiet (context.mentionsSkipped_isQuiet _ _)) fun mentions => ?_
      split
      · exact .nil
      · split
        · exact .pure (areLoose_singleton rfl rfl)
        · exact .pure (areLoose_singleton rfl rfl)

theorem visitClassTemplate_follows (id : DeclId) :
    (context.visitClassTemplate id).Follows context :=
  Gen.Follows.isInherited.visitClassTemplate (fun _ => context.classMembers_follows id _ true)
    fun _ _ => .of_isQuiet (.addBuilder _ _)

/-! ## Visitors -/

/-- A visitor that changes drafts by steps alone. -/
def Visits (context : UnitContext) (visit : Parent → Gen (List Fragment)) : Prop :=
  ∀ {parent : Parent} {draft : Draft} {produced : List Fragment} {progress : Progress},
    context.IsReady draft parent →
    (visit parent).run draft.progress = some (produced, progress) →
    Steps context draft ((draft.advance progress).place produced)

theorem Visits.of_places {visit : Parent → Gen (List Fragment)}
    (places : ∀ parent draft, context.IsReady draft parent →
      (visit parent).Places context draft) : context.Visits visit :=
  fun ready run => places _ _ ready _ _ run

theorem Visits.places {visit : Parent → Gen (List Fragment)} (visits : context.Visits visit)
    {parent : Parent} {draft : Draft} (ready : context.IsReady draft parent) :
    (visit parent).Places context draft :=
  fun _ _ run => visits ready run

theorem visitEnum_visits (id : DeclId) : context.Visits (context.visitEnum id) := by
  refine Visits.of_places fun parent draft ready => ?_
  unfold visitEnum
  dsimp only
  split
  case isTrue =>
    refine .of_appends ready (.pure fun fragment member => ?_)
    obtain ⟨value, -, rfl⟩ := List.mem_map.mp member
    exact ⟨rfl, rfl⟩
  case isFalse =>
    refine .afterQuiet ready (context.skipped_isQuiet id) fun skipped asked ready => ?_
    split
    · exact .nil ready
    · refine .afterRegister ready fun unit produced progress registered run => ?_
      obtain ⟨rfl, rfl⟩ := Gen.run_pure_eq_some run
      exact .single (.placeEnum _ _ ready.idle registered ready.scope)

/-- The instantiation that a typedef names is bound with its base and finds its place. -/
theorem bindTypedef_steps (draft : Draft) {id template : DeclId} {cppType name : String}
    {args : List String} {parent : Parent} {unit : UnitState} {produced : List Fragment}
    {progress : Progress} (ready : context.IsReady draft parent)
    (named : context.namedInstantiation? id = some (template, cppType, args))
    (registered : draft.unit.register? (Name.classIdentifier (context.tree.qualifiedName id))
      cppType = some unit)
    (run : (do
      let base ← context.declaredBase (context.speller.instantiateBase? template args)
      let builder ← context.builderCall template args
      return [.instantiation (Name.classIdentifier (context.tree.qualifiedName id)) name cppType
        base parent builder] : Gen (List Fragment)).run (draft.progress.withUnit unit) =
          some (produced, progress)) :
    Steps context draft ((draft.advance progress).place produced) := by
  let promised : Draft :=
    { draft.change unit with
      promised := [(cppType, Name.classIdentifier (context.tree.qualifiedName id))]
      home := parent
      owner := some cppType
      seeking := [] }
  have promises : Steps context draft promised :=
    .single (.promiseTypedef id ready.idle ready.empty ready.scope ⟨template, args, named⟩
      registered)
  obtain ⟨base, based, baseRun, run⟩ := Gen.run_bind_eq_some run
  rw [declaredBase_eq_baseFor] at baseRun
  have spells : context.Spells template args cppType := .inr (.inl ⟨id, named⟩)
  obtain ⟨baseSteps, found⟩ := baseFor_steps promised
    (requireInstantiationTo_steps context.depth promised) rfl
    (fun isBase => .inl ⟨template, context.tree.parameterNames template, args, isBase⟩)
    (fun base isBase => .inr ⟨template, args, spells, isBase⟩) baseRun
  obtain ⟨builder, built, builderRun, run⟩ := Gen.run_bind_eq_some run
  have builds : Steps context (promised.advance based) (promised.advance built) :=
    steps_of_isQuiet (context.builderCall_isQuiet template args) builderRun
  obtain ⟨rfl, rfl⟩ := Gen.run_pure_eq_some run
  have placed : Step context (promised.advance progress) _ :=
    .placeTypedef name builder rfl rfl rfl (found.mono (Steps.growsTo builds))
  have steps := ((promises.trans baseSteps).trans builds).tail placed
  cases draft
  obtain ⟨rfl, rfl, rfl, rfl⟩ := ready.idle
  exact steps

theorem visitTypedef_visits (id : DeclId) : context.Visits (context.visitTypedef id) := by
  refine Visits.of_places fun parent draft ready => ?_
  unfold visitTypedef
  split
  case isTrue => exact .nil ready
  case isFalse =>
    refine .afterQuiet ready (context.skipped_isQuiet id) fun skipped asked ready => ?_
    split
    · exact .nil ready
    · split
      case h_1 => exact .nil ready
      case h_2 template cppType args named =>
        refine .afterQuiet ready (context.skipped_isQuiet template) fun skipped asked ready => ?_
        split
        · exact .nil ready
        · refine .afterQuiet ready (context.mentionsSkipped_isQuiet id [cppType])
            fun mentions read ready => ?_
          split
          · exact .nil ready
          · refine .afterQuiet ready .unit fun state start ready => ?_
            split
            · exact .nil ready
            · exact .afterRegister ready fun unit produced progress registered run =>
                bindTypedef_steps _ ready named registered run

theorem visitEach_steps {visit : DeclId → Parent → Gen (List Fragment)}
    (visits : ∀ id, context.Visits (visit id)) (ids : List DeclId) {parent : Parent}
    (draft : Draft) {pieces : List (List Fragment)} {progress : Progress}
    (ready : context.IsReady draft parent)
    (run : (ids.mapM fun id => do
      let produced ← visit id parent
      return (← Gen.takePending) ++ produced : Gen (List (List Fragment))).run draft.progress =
        some (pieces, progress)) :
    Steps context draft (draft.append progress pieces.flatten) ∧ progress.unit.pending = [] := by
  induction ids generalizing draft pieces with
  | nil =>
      rw [List.mapM_nil] at run
      obtain ⟨rfl, rfl⟩ := Gen.run_pure_eq_some run
      refine ⟨?_, ready.empty⟩
      rw [List.flatten_nil, append_nil]
      exact .refl
  | cons id rest ih =>
      rw [List.mapM_cons] at run
      obtain ⟨piece, between, pieceRun, run⟩ := Gen.run_bind_eq_some run
      obtain ⟨others, after, othersRun, run⟩ := Gen.run_bind_eq_some run
      obtain ⟨rfl, rfl⟩ := Gen.run_pure_eq_some run
      obtain ⟨produced, visited, visitRun, pieceRun⟩ := Gen.run_bind_eq_some pieceRun
      obtain ⟨waiting, taken, takeRun, pieceRun⟩ := Gen.run_bind_eq_some pieceRun
      rw [Gen.run_takePending] at takeRun
      cases Option.some.inj takeRun
      obtain ⟨rfl, rfl⟩ := Gen.run_pure_eq_some pieceRun
      have first := visits id ready visitRun
      rw [advance_place] at first
      obtain ⟨idle, -, scope⟩ := ready
      obtain ⟨otherSteps, nothing⟩ :=
        ih (draft.append visited.release (visited.unit.pending ++ produced))
          ⟨⟨idle.promised, idle.home, idle.owner, idle.seeking⟩, rfl,
            scope.mono (Steps.growsTo first)⟩
          othersRun
      refine ⟨?_, nothing⟩
      rw [append_append] at otherSteps
      rw [List.flatten_cons]
      exact first.trans otherSteps

theorem visitAll_steps {visit : DeclId → Parent → Gen (List Fragment)}
    (visits : ∀ id, context.Visits (visit id)) (ids : List DeclId) {parent : Parent}
    (draft : Draft) {produced : List Fragment} {progress : Progress}
    (ready : context.IsReady draft parent)
    (run : (context.visitAll visit ids parent).run draft.progress = some (produced, progress)) :
    Steps context draft (draft.append progress produced) ∧ progress.unit.pending = [] := by
  obtain ⟨pieces, between, piecesRun, run⟩ := Gen.run_bind_eq_some run
  obtain ⟨rfl, rfl⟩ := Gen.run_pure_eq_some run
  exact visitEach_steps visits _ draft ready piecesRun

/-- Fragments that have found their place leave nothing to be placed. -/
theorem place_steps_of_append {draft : Draft} {produced : List Fragment} {progress : Progress}
    (steps : Steps context draft (draft.append progress produced))
    (empty : progress.unit.pending = []) :
    Steps context draft ((draft.advance progress).place produced) := by
  rw [advance_place, empty, List.nil_append, Progress.release_of_pending_eq_nil empty]
  exact steps

theorem openNamespace_steps (draft : Draft) {id : DeclId} {parent : Parent}
    {opened : Option Fragment} {progress : Progress} (ready : context.IsReady draft parent)
    (run : (context.openNamespace id parent).run draft.progress = some (opened, progress)) :
    Steps context draft (draft.append progress opened.toList) ∧
      context.IsReady (draft.append progress opened.toList)
        (.module_ (context.moduleIdentifier id)) := by
  obtain ⟨⟨promised, home, owner, seeking⟩, empty, scope⟩ := ready
  obtain ⟨isOpen, rfl, rfl⟩ | ⟨new, ⟨name, rfl⟩, rfl⟩ := run_openNamespace run
  · rw [Option.toList_none, append_nil]
    exact ⟨.refl, ⟨promised, home, owner, seeking⟩, empty, _, isOpen, rfl⟩
  · refine ⟨?_, ⟨promised, home, owner, seeking⟩, empty, knownScope_openModule _ id⟩
    let unit := draft.unit.openModule (context.tree.qualifiedName id) (context.moduleIdentifier id)
    let fragment := Fragment.module_ (context.moduleIdentifier id) name parent
    let waiting := draft.progress.withUnit (unit.enqueue fragment)
    have opens : Step context draft (draft.advance waiting) := .openModule id name new scope
    have places : Steps context draft ((draft.advance waiting).place []) :=
      .tail (.single opens) (.placeLoose [] ⟨promised, home, owner, seeking⟩ nofun)
    have unitEmpty : unit.pending = [] := empty
    have released : waiting.release = draft.progress.withUnit unit :=
      congrArg draft.progress.withUnit (UnitState.release_enqueue unitEmpty fragment)
    have waits : waiting.unit.pending = [fragment] := by
      change draft.unit.pending ++ [fragment] = [fragment]
      rw [empty, List.nil_append]
    rw [advance_place, released, waits] at places
    exact places

theorem visitAll_places {visit : DeclId → Parent → Gen (List Fragment)}
    (visits : ∀ id, context.Visits (visit id)) (ids : List DeclId) {parent : Parent}
    {draft : Draft} (ready : context.IsReady draft parent) :
    (context.visitAll visit ids parent).Places context draft := by
  intro produced progress run
  obtain ⟨steps, nothing⟩ := visitAll_steps visits ids draft ready run
  exact place_steps_of_append steps nothing

theorem visitNamespace_visits {visit : DeclId → Parent → Gen (List Fragment)}
    (visits : ∀ id, context.Visits (visit id)) (id : DeclId) :
    context.Visits (context.visitNamespace visit id) := by
  refine Visits.of_places fun parent draft ready => ?_
  unfold visitNamespace
  dsimp only
  split
  · exact .nil ready
  · split
    · exact visitAll_places visits _ ready
    · refine .afterQuiet ready (context.skipped_isQuiet id) fun skipped asked ready => ?_
      split
      · exact .nil ready
      · intro produced progress run
        obtain ⟨opened, entered, openRun, run⟩ := Gen.run_bind_eq_some run
        obtain ⟨inside, visited, insideRun, run⟩ := Gen.run_bind_eq_some run
        obtain ⟨rfl, rfl⟩ := Gen.run_pure_eq_some run
        obtain ⟨openSteps, isOpen⟩ := openNamespace_steps _ ready openRun
        obtain ⟨insideSteps, nothing⟩ := visitAll_steps visits _
          ((draft.advance asked).append entered opened.toList) isOpen insideRun
        rw [append_append] at insideSteps
        exact place_steps_of_append (openSteps.trans insideSteps) nothing

theorem mem_children_of_mem_nestedDeclarations {tree : DeclTree} {id child : DeclId}
    (member : child ∈ nestedDeclarations tree id) : child ∈ tree.children id := by
  unfold nestedDeclarations at member
  simp only [List.mem_append, List.mem_filter] at member
  tauto

/-- What an opaque class binds. -/
def opaqueType (inner : OpaqueClass) : String × String :=
  (inner.cppType, inner.identifier)

theorem opaqueClass_steps (draft : Draft) {siblings : List DeclId} {id : DeclId}
    {inner : Option OpaqueClass} {progress : Progress} (settled : draft.asking = [])
    (run : (context.opaqueClass siblings id).run draft.progress = some (inner, progress)) :
    Steps context draft (draft.promise progress (inner.toList.map opaqueType)) := by
  unfold opaqueClass at run
  dsimp only at run
  split at run
  case isTrue =>
    obtain ⟨rfl, rfl⟩ := Gen.run_pure_eq_some run
    rw [Option.toList_none, List.map_nil, promise_nil]
    exact .refl
  case isFalse suitable =>
    have record : (context.tree.decl id).kind.isRecord = true := by
      simp only [Bool.or_eq_true, Bool.not_eq_true', not_or, Bool.not_eq_false] at suitable
      exact suitable.1.1.1.1
    obtain ⟨skipped, asked, skipRun, run⟩ := Gen.run_bind_eq_some run
    have quiet : Steps context draft (draft.advance asked) :=
      steps_of_isQuiet (context.skipped_isQuiet id) skipRun
    split at run
    case isTrue =>
      obtain ⟨rfl, rfl⟩ := Gen.run_pure_eq_some run
      rw [Option.toList_none, List.map_nil, promise_nil]
      exact quiet
    case isFalse =>
      split at run
      case isTrue =>
        obtain ⟨rfl, rfl⟩ := Gen.run_pure_eq_some run
        rw [Option.toList_none, List.map_nil, promise_nil]
        exact quiet
      case isFalse =>
        obtain ⟨bound, registered, registerRun, run⟩ := Gen.run_bind_eq_some run
        obtain ⟨unit, rfl, registration, rfl⟩ | ⟨rfl, -, rfl⟩ :=
          Gen.run_register_eq_some registerRun
        · obtain ⟨rfl, rfl⟩ := Gen.run_pure_eq_some run
          exact quiet.tail (.promiseOpaque id settled record registration)
        · obtain ⟨rfl, rfl⟩ := Gen.run_pure_eq_some run
          rw [Option.toList_none, List.map_nil, promise_nil]
          exact quiet.tail (.note (.report _ _))

theorem opaqueEach_steps (siblings ids : List DeclId) (draft : Draft)
    {inner : List (Option OpaqueClass)} {progress : Progress} (settled : draft.asking = [])
    (run : (ids.mapM (context.opaqueClass siblings)).run draft.progress =
      some (inner, progress)) :
    Steps context draft (draft.promise progress (inner.reduceOption.map opaqueType)) := by
  induction ids generalizing draft inner with
  | nil =>
      rw [List.mapM_nil] at run
      obtain ⟨rfl, rfl⟩ := Gen.run_pure_eq_some run
      rw [List.reduceOption_nil, List.map_nil, promise_nil]
      exact .refl
  | cons id rest ih =>
      rw [List.mapM_cons] at run
      obtain ⟨first, between, firstRun, run⟩ := Gen.run_bind_eq_some run
      obtain ⟨others, after, othersRun, run⟩ := Gen.run_bind_eq_some run
      obtain ⟨rfl, rfl⟩ := Gen.run_pure_eq_some run
      have firstSteps := opaqueClass_steps draft settled firstRun
      have otherSteps := ih (draft.promise between (first.toList.map opaqueType)) settled othersRun
      rw [promise_promise, ← List.map_append] at otherSteps
      have parts : (first :: others).reduceOption = first.toList ++ others.reduceOption := by
        cases first <;> rfl
      rw [parts]
      exact firstSteps.trans otherSteps

/-- A class is bound with its base, its opaque classes and its members, and it finds its place
among what waited; then those inside it follow. -/
theorem bindClass_steps {visit : DeclId → Parent → Gen (List Fragment)}
    (visits : ∀ id, context.Visits (visit id)) (draft : Draft) {id : DeclId} {name : String}
    {parent : Parent} {unit : UnitState} {produced : List Fragment} {progress : Progress}
    (ready : context.IsReady draft parent) (record : (context.tree.decl id).kind.isRecord)
    (registered : draft.unit.register? (Name.classIdentifier (context.tree.qualifiedName id))
      (context.tree.qualifiedName id) = some unit)
    (run : (do
      let cppType := context.tree.qualifiedName id
      let identifier := Name.classIdentifier cppType
      let base ← context.declaredBase (context.speller.resolveBase? id [] [])
      let opaqueClasses ← context.opaqueClasses id
      let (members, aliases) ← context.classMembers id cppType false
      let inside := Parent.class_ identifier
      let (before, behind) := (← Gen.takePending).span (·.parent != inside)
      let nested ← context.visitAll visit (nestedDeclarations context.tree id) inside
      return before
        ++ .class_ ⟨identifier, name, cppType, base, parent, opaqueClasses, members, aliases⟩
        :: behind ++ nested : Gen (List Fragment)).run (draft.progress.withUnit unit) =
          some (produced, progress)) :
    Steps context draft (draft.append progress produced) ∧ progress.unit.pending = [] := by
  let own := context.tree.qualifiedName id
  let promised : Draft :=
    { draft.change unit with
      promised := [(own, Name.classIdentifier own)]
      home := parent
      owner := some own
      seeking := [] }
  have promises : Steps context draft promised :=
    .single (.promiseClass id ready.idle ready.empty ready.scope record registered)
  obtain ⟨base, based, baseRun, run⟩ := Gen.run_bind_eq_some run
  rw [declaredBase_eq_baseFor] at baseRun
  obtain ⟨baseSteps, found⟩ := baseFor_steps promised
    (requireInstantiationTo_steps context.depth promised) rfl
    (fun isBase => .inl ⟨id, [], [], isBase⟩) (fun base isBase => .inl ⟨id, record, rfl, isBase⟩)
    baseRun
  let settled : Draft := { promised.advance based with owner := none }
  have settles : Steps context draft settled :=
    (promises.trans baseSteps).tail (.settle id record rfl rfl)
  obtain ⟨opaqueClasses, declared, opaqueRun, run⟩ := Gen.run_bind_eq_some run
  obtain ⟨inner, collected, innerRun, opaqueRun⟩ := Gen.run_bind_eq_some opaqueRun
  obtain ⟨rfl, rfl⟩ := Gen.run_pure_eq_some opaqueRun
  have opaqueSteps := opaqueEach_steps _ _ settled rfl innerRun
  let opened := settled.promise declared (inner.reduceOption.map opaqueType)
  obtain ⟨⟨members, aliases⟩, filled, memberRun, run⟩ := Gen.run_bind_eq_some run
  have memberSteps := context.classMembers_follows id own false opened _ filled rfl memberRun
  have steps := (settles.trans opaqueSteps).trans memberSteps
  obtain ⟨waiting, taken, takeRun, run⟩ := Gen.run_bind_eq_some run
  rw [Gen.run_takePending] at takeRun
  cases Option.some.inj takeRun
  dsimp only at run
  rw [List.span_eq_takeWhile_dropWhile] at run
  obtain ⟨nested, visited, nestedRun, run⟩ := Gen.run_bind_eq_some run
  obtain ⟨rfl, rfl⟩ := Gen.run_pure_eq_some run
  let binding : ClassBinding :=
    ⟨Name.classIdentifier own, name, own, base, parent, inner.reduceOption, members, aliases⟩
  have settling : Steps context (promised.advance based) settled :=
    .single (.settle id record rfl rfl)
  have places : Step context (opened.advance filled) _ :=
    .placeClass binding rfl rfl
      (found.mono (Steps.growsTo ((settling.trans opaqueSteps).trans memberSteps))) rfl
  let around : List Fragment :=
    filled.unit.pending.takeWhile (goesBefore binding.identifier)
      ++ .class_ binding :: filled.unit.pending.dropWhile (goesBefore binding.identifier)
  have placed : Steps context draft (draft.append filled.release around) := by
    cases draft
    obtain ⟨rfl, rfl, rfl, rfl⟩ := ready.idle
    rw [List.append_assoc] at places
    exact steps.tail places
  have bound : filled.unit.identifierFor? own = some (Name.classIdentifier own) :=
    (Steps.growsTo ((baseSteps.trans settling).trans (opaqueSteps.trans memberSteps)))
      |>.identifierFor?_eq_some (UnitState.identifierFor?_of_register registered)
  have known : context.KnownScope filled.release.unit (.class_ (Name.classIdentifier own)) :=
    Or.inl ⟨own, bound⟩
  obtain ⟨nestedSteps, nothing⟩ := visitAll_steps visits _ (draft.append filled.release around)
    ⟨⟨ready.idle.promised, ready.idle.home, ready.idle.owner, ready.idle.seeking⟩, rfl, known⟩
    nestedRun
  rw [append_append] at nestedSteps
  exact ⟨placed.trans nestedSteps, nothing⟩

theorem visitClass_visits {visit : DeclId → Parent → Gen (List Fragment)}
    (visits : ∀ id, context.Visits (visit id)) (id : DeclId)
    (record : (context.tree.decl id).kind.isRecord) :
    context.Visits (context.visitClass visit id) := by
  refine Visits.of_places fun parent draft ready => ?_
  unfold visitClass
  dsimp only
  split
  · exact .nil ready
  · refine .afterQuiet ready (context.skipped_isQuiet id) fun skipped asked ready => ?_
    split
    · exact .nil ready
    · refine .afterQuiet ready (context.exported_isQuiet id) fun exported shown ready => ?_
      split
      · exact .nil ready
      · refine .afterRegister ready fun unit produced progress registered run => ?_
        obtain ⟨steps, nothing⟩ := bindClass_steps visits _ ready record registered run
        exact place_steps_of_append steps nothing

theorem visitTo_visits (depth : Nat) (id : DeclId) :
    context.Visits (context.visitTo depth id) := by
  induction depth generalizing id with
  | zero =>
      intro parent draft produced progress ready run
      cases run
  | succ depth ih =>
      refine Visits.of_places fun parent draft ready => ?_
      unfold visitTo
      split
      case h_1 => exact Visits.places (visitNamespace_visits ih id) ready
      case h_2 => exact visitAll_places ih _ ready
      case h_3 isClass =>
        have record : (context.tree.decl id).kind.isRecord := by rw [isClass]; rfl
        exact Visits.places (visitClass_visits ih id record) ready
      case h_4 isStruct =>
        have record : (context.tree.decl id).kind.isRecord := by rw [isStruct]; rfl
        exact Visits.places (visitClass_visits ih id record) ready
      case h_5 => exact .of_appends ready (.bind (visitClassTemplate_follows id) fun _ => .nil)
      case h_6 => exact Visits.places (visitEnum_visits id) ready
      case h_7 => exact .of_appends ready (visitFunction_appends id parent)
      case h_8 => exact .of_appends ready (visitVariable_appends id parent)
      case h_9 => exact Visits.places (visitTypedef_visits id) ready
      case h_10 => exact Visits.places (visitTypedef_visits id) ready
      case h_11 => exact .nil ready

/-- A unit is reached from the empty draft by steps, and nothing waits at its end. -/
theorem visitUnit_steps {fragments : List Fragment} {progress : Progress}
    (run : context.visitUnit.run ⟨UnitState.empty, []⟩ = some (fragments, progress)) :
    Steps context Draft.start ⟨fragments, [], .global, none, [], progress⟩ ∧
      progress.unit.pending = [] := by
  have ready : context.IsReady Draft.start .global := ⟨⟨rfl, rfl, rfl, rfl⟩, rfl, trivial⟩
  exact visitAll_steps (visitTo_visits _) _ Draft.start ready run

end UnitContext

/-- The fragments of a unit are those of its traversal, the index is told what that bound, and all
events are reported. -/
theorem generateUnit_eq_some {depth : Nat} {options : BindOptions} {index : ProjectIndex}
    {unit : SourceUnit} {relative : String} {result : UnitResult}
    (run : generateUnit depth options index unit relative = some result) :
    ∃ progress,
      (UnitContext.ofUnit depth unit options index relative).visitUnit.run
        ⟨UnitState.empty, []⟩ = some (result.bindings.fragments, progress) ∧
      result.index = index.recordUnit progress.unit (result.bindings.artifact "ipp") ∧
      progress.events ⊆ result.events := by
  obtain ⟨⟨fragments, progress⟩, visitRun, rest⟩ := Option.bind_eq_some_iff.mp run
  cases Option.some.inj rest
  exact ⟨progress, visitRun, rfl, List.subset_append_left _ _⟩

/-! ## Units made by hand -/

/-- The options of a run without any rules. -/
def BindOptions.plain : BindOptions :=
  ⟨⟨RuleTable.empty, []⟩, ⟨RuleTable.empty⟩, [], none⟩

/-- The unit that steps of construction give. -/
def SourceUnit.ofSteps (steps : List TreeBuilder.Step) : SourceUnit :=
  (TreeBuilder.performAll (TreeBuilder.start "/src/unit.hpp") steps).unit

end Bindery
