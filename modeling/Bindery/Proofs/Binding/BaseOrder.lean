import Bindery.Proofs.Binding.ScopeOrder
import Mathlib.Data.List.Chain

/-!
# The order of bases

A base that is an instantiation is bound by an earlier fragment or in an earlier unit, unless it
counts as bound for another reason: a typedef names it, its identifier is taken, it derives from
itself, it has the name of a class, or it waits behind something that is attached to the class
which it is a base of.
-/

set_option autoImplicit false
set_option maxRecDepth 100000

namespace Bindery

open Draft Fragment

namespace UnitContext

/-- Whether a C++ type has the name of a class. -/
def IsRecordName (context : UnitContext) (cppType : String) : Prop :=
  ∃ id, (context.tree.decl id).kind.isRecord ∧ context.tree.qualifiedName id = cppType

/-- Whether an identifier was refused to a C++ type. -/
def IsRefused (events : List Event) (cppType : String) : Prop :=
  ∃ identifier owner, Event.identifierCollision identifier owner cppType ∈ events

/-- Whether a C++ type is bound by a fragment or in an earlier unit. -/
def IsBoundBefore (context : UnitContext) (fragments : List Fragment) (cppType : String) : Prop :=
  (∃ fragment ∈ fragments, fragment.cppType? = some cppType) ∨
    ∃ identifier, context.index.knownClass? cppType = some identifier

/-- The grounds on which a base may come without being bound before. -/
inductive IsUnsettled (context : UnitContext) (events : List Event) (fragment : Fragment)
    (later : List Fragment) (cppType base : String) : Prop
  /-- A typedef somewhere in the unit names the base. -/
  | named (typedef : (context.speller.registries.typedefFor? base).isSome)
  /-- The identifier of the base is taken. -/
  | refused (refused : IsRefused events base)
  /-- The base derives from itself. -/
  | cyclic (cycle : Relation.TransGen context.DerivesFrom base base)
  /-- The base has the name of a class. -/
  | record (record : context.IsRecordName base)
  /-- The base is taken over as it is written. -/
  | plain (plain : context.HasPlainBase cppType base)
  /-- The base stands behind a class, since the fragment that follows the class is attached to
  it. -/
  | deferred {binding : ClassBinding} {next : Fragment} {rest : List Fragment}
      (isClass : fragment = .class_ binding) (follows : later = next :: rest)
      (attached : next.parent = .class_ binding.identifier)
      (behind : ∃ other ∈ later, other.cppType? = some base)

/-- What is known of a C++ type that counts as bound in a draft. -/
inductive IsAccounted (context : UnitContext) (draft : Draft) (cppType : String) : Prop
  | made (fragment : Fragment) (member : fragment ∈ draft.fragments)
      (same : fragment.cppType? = some cppType)
  | refused (refused : IsRefused draft.progress.events cppType)
  | sought (member : cppType ∈ draft.seeking)
  | promised (member : cppType ∈ draft.promised.map Prod.fst)
  | record (record : context.IsRecordName cppType)

theorem not_mem_of_isBound_eq_false {context : UnitContext} {unit : UnitState}
    {cppType : String} (unbound : context.isBound unit cppType = false) :
    cppType ∉ unit.autoGenerated ∧ cppType ∉ unit.byType.map Prod.fst := by
  simp only [isBound, boundIdentifier?, Bool.or_eq_false_iff, List.contains_eq_mem,
    decide_eq_false_iff_not, Option.isSome_or] at unbound
  obtain ⟨⟨-, generated⟩, unknown, -⟩ := unbound
  refine ⟨generated, not_mem_keys_of_lookup_eq_none ?_⟩
  exact Option.isNone_iff_eq_none.mp (Option.isSome_eq_false_iff.mp unknown)

end UnitContext

open UnitContext

/-! ## Types whose bases are looked for -/

/-- Each type whose base is looked for derives from the one inside it, and what is being made is
neither registered nor made twice. -/
structure Draft.Asks (context : UnitContext) (draft : Draft) : Prop where
  derives : draft.asking.IsChain fun inner outer => context.DerivesFrom outer inner
  distinct : draft.seeking.Nodup
  generated : ∀ cppType ∈ draft.seeking, cppType ∈ draft.unit.autoGenerated
  unregistered : ∀ cppType ∈ draft.seeking, cppType ∉ draft.unit.byType.map Prod.fst

theorem asks_of_seeking_eq_nil {context : UnitContext} {draft : Draft}
    (seeking : draft.seeking = []) : draft.Asks context := by
  refine ⟨?_, ?_, ?_, ?_⟩
  · rw [asking, seeking, List.nil_append]
    cases draft.owner with
    | none => exact .nil
    | some own => exact List.isChain_singleton own
  · rw [seeking]
    exact .nil
  · intro cppType member
    rw [seeking] at member
    cases member
  · intro cppType member
    rw [seeking] at member
    cases member

/-- In a chain of types each derives, at some remove, from those inside it. -/
theorem transGen_of_isChain {context : UnitContext} {inner outer : String}
    {rest : List String}
    (chain : (inner :: rest).IsChain fun inner outer => context.DerivesFrom outer inner)
    (member : outer ∈ rest) : Relation.TransGen context.DerivesFrom outer inner := by
  induction rest generalizing inner with
  | nil => cases member
  | cons next rest ih =>
      obtain ⟨first, others⟩ := List.isChain_cons_cons.mp chain
      rcases List.mem_cons.mp member with rfl | further
      · exact .single first
      · exact .tail (ih others further) first

section

variable {context : UnitContext} {before after : Draft}

theorem eq_nil_of_asking_eq_nil {draft : Draft} (settled : draft.asking = []) :
    draft.seeking = [] ∧ draft.owner = none := by
  obtain ⟨seeking, owner⟩ := List.append_eq_nil_iff.mp settled
  exact ⟨seeking, Option.toList_eq_nil_iff.mp owner⟩

theorem Step.preserves_asks (step : Step context before after) (asks : before.Asks context) :
    after.Asks context := by
  cases step with
  | note quiet =>
      refine ⟨asks.derives, asks.distinct, fun cppType member => ?_, fun cppType member => ?_⟩
      · exact quiet.autoGenerated.symm ▸ asks.generated cppType member
      · exact quiet.byType.symm ▸ asks.unregistered cppType member
  | openModule => exact ⟨asks.derives, asks.distinct, asks.generated, asks.unregistered⟩
  | begin unbound derives =>
      obtain ⟨notGenerated, notRegistered⟩ := not_mem_of_isBound_eq_false unbound
      refine ⟨List.isChain_cons.mpr ⟨derives, asks.derives⟩,
        List.nodup_cons.mpr ⟨fun member => notGenerated (asks.generated _ member), asks.distinct⟩,
        fun other member => ?_, fun other member => ?_⟩
      · rcases List.mem_cons.mp member with rfl | earlier
        · exact List.mem_cons_self
        · exact List.mem_cons_of_mem _ (asks.generated other earlier)
      · rcases List.mem_cons.mp member with rfl | earlier
        · exact notRegistered
        · exact asks.unregistered other earlier
  | finish qualified name builder seeking registered =>
      obtain ⟨derives, distinct, generated, unregistered⟩ := asks
      obtain ⟨-, -, rfl⟩ := UnitState.register?_eq_some registered
      rw [seeking] at distinct generated unregistered
      rw [asking, seeking] at derives
      obtain ⟨new, distinct⟩ := List.nodup_cons.mp distinct
      refine ⟨derives.tail, distinct, fun other member => ?_, fun other member => ?_⟩
      · exact generated other (List.mem_cons_of_mem _ member)
      · intro registeredNow
        change other ∈ (before.unit.byType ++ [_]).map Prod.fst at registeredNow
        rw [List.map_append, List.map_singleton, List.mem_append,
          List.mem_singleton] at registeredNow
        rcases registeredNow with old | rfl
        · exact unregistered other (List.mem_cons_of_mem _ member) old
        · exact new member
  | refuse qualified seeking taken =>
      obtain ⟨derives, distinct, generated, unregistered⟩ := asks
      rw [seeking] at distinct generated unregistered
      rw [asking, seeking] at derives
      exact ⟨derives.tail, (List.nodup_cons.mp distinct).2,
        fun other member => generated other (List.mem_cons_of_mem _ member),
        fun other member => unregistered other (List.mem_cons_of_mem _ member)⟩
  | promiseClass => exact asks_of_seeking_eq_nil rfl
  | settle _ _ _ seeking => exact asks_of_seeking_eq_nil seeking
  | promiseOpaque _ settled => exact asks_of_seeking_eq_nil (eq_nil_of_asking_eq_nil settled).1
  | placeClass => exact asks_of_seeking_eq_nil rfl
  | promiseTypedef => exact asks_of_seeking_eq_nil rfl
  | placeTypedef _ _ _ seeking => exact asks_of_seeking_eq_nil seeking
  | placeEnum _ _ idle => exact asks_of_seeking_eq_nil idle.seeking
  | placeLoose => exact ⟨asks.derives, asks.distinct, asks.generated, asks.unregistered⟩

/-! ## Types that count as bound -/

/-- What is promised are classes and the type whose base is looked for, and every type that counts
as bound is accounted for. -/
structure Draft.Accounts (context : UnitContext) (draft : Draft) : Prop where
  promised : ∀ cppType ∈ draft.promised.map Prod.fst,
    context.IsRecordName cppType ∨ draft.owner = some cppType
  registered : ∀ cppType ∈ draft.unit.byType.map Prod.fst, context.IsAccounted draft cppType
  generated : ∀ cppType ∈ draft.unit.autoGenerated, context.IsAccounted draft cppType

theorem accounts_start (context : UnitContext) : Draft.start.Accounts context :=
  ⟨nofun, nofun, nofun⟩

theorem Step.preserves_promised (step : Step context before after)
    (promised : ∀ cppType ∈ before.promised.map Prod.fst,
      context.IsRecordName cppType ∨ before.owner = some cppType) :
    ∀ cppType ∈ after.promised.map Prod.fst,
      context.IsRecordName cppType ∨ after.owner = some cppType := by
  cases step with
  | promiseClass id =>
      intro cppType member
      cases List.mem_singleton.mp member
      exact .inr rfl
  | settle id record owner seeking =>
      intro cppType member
      rcases promised cppType member with named | owned
      · exact .inl named
      · rw [owner] at owned
        cases Option.some.inj owned
        exact .inl ⟨id, record, rfl⟩
  | promiseOpaque id settled record =>
      intro cppType member
      rw [List.map_append, List.map_singleton, List.mem_append, List.mem_singleton] at member
      rcases member with old | rfl
      · exact promised cppType old
      · exact .inl ⟨id, record, rfl⟩
  | placeClass => exact nofun
  | promiseTypedef id =>
      intro cppType member
      cases List.mem_singleton.mp member
      exact .inr rfl
  | placeTypedef => exact nofun
  | _ => exact promised

theorem mem_keys_of_identifierFor? {unit : UnitState} {cppType : String}
    (known : (unit.identifierFor? cppType).isSome) : cppType ∈ unit.byType.map Prod.fst := by
  obtain ⟨entry, member, same⟩ := List.lookup_isSome_iff.mp known
  rw [beq_iff_eq] at same
  subst same
  exact List.mem_map_of_mem member

theorem isRefused_of_register?_eq_none {unit : UnitState} {identifier cppType : String}
    (taken : unit.register? identifier cppType = none)
    (unregistered : cppType ∉ unit.byType.map Prod.fst) :
    IsRefused (Gen.collisionEvents unit identifier cppType) cppType := by
  rcases UnitState.register?_eq_none taken with ⟨bound, known⟩ | ⟨owner, owned⟩
  · exact absurd (mem_keys_of_identifierFor? (Option.isSome_of_eq_some known)) unregistered
  · refine ⟨identifier, owner, ?_⟩
    rw [Gen.collisionEvents, owned]
    exact List.mem_singleton_self _

theorem Step.events_subset (step : Step context before after) :
    before.progress.events ⊆ after.progress.events := by
  cases step with
  | note quiet => exact quiet.events.subset
  | refuse => exact List.subset_append_left _ _
  | _ => exact List.Subset.refl _

theorem isRefused_mono {events events' : List Event} {cppType : String}
    (refused : IsRefused events cppType) (subset : events ⊆ events') :
    IsRefused events' cppType := by
  obtain ⟨identifier, owner, member⟩ := refused
  exact ⟨identifier, owner, subset member⟩

theorem Step.preserves_sought {cppType : String} (step : Step context before after)
    (asks : before.Asks context) (sought : cppType ∈ before.seeking) :
    context.IsAccounted after cppType := by
  cases step with
  | begin => exact .sought (List.mem_cons_of_mem _ sought)
  | @finish made _ _ base parent qualified name builder seeking =>
      rw [seeking] at sought
      rcases List.mem_cons.mp sought with rfl | outer
      · refine .made (.instantiation (Name.classIdentifier qualified) name _ base parent builder)
          ?_ rfl
        exact List.mem_append_right _ (List.mem_append_right _ (List.mem_singleton_self _))
      · exact .sought outer
  | refuse qualified seeking taken =>
      have unregistered := asks.unregistered cppType sought
      rw [seeking] at sought
      rcases List.mem_cons.mp sought with rfl | outer
      · have refused := isRefused_of_register?_eq_none taken unregistered
        exact .refused (isRefused_mono refused (List.subset_append_right _ _))
      · exact .sought outer
  | promiseClass _ idle =>
      rw [idle.seeking] at sought
      cases sought
  | placeClass _ settled =>
      rw [(eq_nil_of_asking_eq_nil settled).1] at sought
      cases sought
  | promiseTypedef _ idle =>
      rw [idle.seeking] at sought
      cases sought
  | _ => exact .sought sought

theorem Step.preserves_accounted_promised {cppType : String} (step : Step context before after)
    (accounts : before.Accounts context) (promised : cppType ∈ before.promised.map Prod.fst) :
    context.IsAccounted after cppType := by
  cases step with
  | promiseClass _ idle =>
      rw [idle.promised] at promised
      cases promised
  | promiseOpaque =>
      refine .promised ?_
      rw [List.map_append]
      exact List.mem_append_left _ promised
  | placeClass _ settled =>
      rcases accounts.promised cppType promised with record | owned
      · exact .record record
      · rw [(eq_nil_of_asking_eq_nil settled).2] at owned
        cases owned
  | promiseTypedef _ idle =>
      rw [idle.promised] at promised
      cases promised
  | @placeTypedef made identifier base name builder _ _ bindings =>
      rw [bindings] at promised
      cases List.mem_singleton.mp promised
      refine .made (.instantiation identifier name made base before.home builder) ?_ rfl
      exact List.mem_append_left _ (List.mem_append_right _ (List.mem_singleton_self _))
  | _ => exact .promised promised

theorem Step.preserves_accounted {cppType : String} (step : Step context before after)
    (asks : before.Asks context) (accounts : before.Accounts context)
    (accounted : context.IsAccounted before cppType) : context.IsAccounted after cppType := by
  rcases accounted with ⟨fragment, member, same⟩ | refused | sought | promised | record
  · exact .made fragment (step.fragments_subset member) same
  · exact .refused (isRefused_mono refused step.events_subset)
  · exact step.preserves_sought asks sought
  · exact step.preserves_accounted_promised accounts promised
  · exact .record record

theorem mem_keys_of_register {unit unit' : UnitState} {identifier cppType other : String}
    (registered : unit.register? identifier cppType = some unit')
    (member : other ∈ unit'.byType.map Prod.fst) :
    other ∈ unit.byType.map Prod.fst ∨ other = cppType := by
  obtain ⟨-, -, rfl⟩ := UnitState.register?_eq_some registered
  simpa using member

theorem Step.accounts_for_registered {cppType : String} (step : Step context before after)
    (registered : cppType ∈ after.unit.byType.map Prod.fst) :
    cppType ∈ before.unit.byType.map Prod.fst ∨ context.IsAccounted after cppType := by
  cases step with
  | note quiet => exact .inl (quiet.byType ▸ registered)
  | @finish made _ _ base parent qualified name builder seeking new =>
      rcases mem_keys_of_register new registered with old | rfl
      · exact .inl old
      · refine .inr (.made
          (.instantiation (Name.classIdentifier qualified) name _ base parent builder) ?_ rfl)
        exact List.mem_append_right _ (List.mem_append_right _ (List.mem_singleton_self _))
  | promiseClass _ _ _ _ _ new =>
      rcases mem_keys_of_register new registered with old | rfl
      · exact .inl old
      · exact .inr (.promised (List.mem_singleton_self _))
  | promiseOpaque _ _ _ new =>
      rcases mem_keys_of_register new registered with old | rfl
      · exact .inl old
      · refine .inr (.promised ?_)
        rw [List.map_append]
        exact List.mem_append_right _ (List.mem_singleton_self _)
  | promiseTypedef _ _ _ _ _ new =>
      rcases mem_keys_of_register new registered with old | rfl
      · exact .inl old
      · exact .inr (.promised (List.mem_singleton_self _))
  | @placeEnum made qualified parent _ name values _ new =>
      rcases mem_keys_of_register new registered with old | rfl
      · exact .inl old
      · refine .inr (.made (.enum (Name.classIdentifier qualified) name _ parent values) ?_ rfl)
        exact List.mem_append_left _ (List.mem_append_right _ (List.mem_singleton_self _))
  | _ => exact .inl registered

theorem Step.accounts_for_generated {cppType : String} (step : Step context before after)
    (generated : cppType ∈ after.unit.autoGenerated) :
    cppType ∈ before.unit.autoGenerated ∨ context.IsAccounted after cppType := by
  cases step with
  | note quiet => exact .inl (quiet.autoGenerated ▸ generated)
  | begin =>
      rcases List.mem_cons.mp generated with rfl | old
      · exact .inr (.sought List.mem_cons_self)
      · exact .inl old
  | finish _ _ _ _ new =>
      obtain ⟨-, -, rfl⟩ := UnitState.register?_eq_some new
      exact .inl generated
  | promiseClass _ _ _ _ _ new =>
      obtain ⟨-, -, rfl⟩ := UnitState.register?_eq_some new
      exact .inl generated
  | promiseOpaque _ _ _ new =>
      obtain ⟨-, -, rfl⟩ := UnitState.register?_eq_some new
      exact .inl generated
  | promiseTypedef _ _ _ _ _ new =>
      obtain ⟨-, -, rfl⟩ := UnitState.register?_eq_some new
      exact .inl generated
  | placeEnum _ _ _ new =>
      obtain ⟨-, -, rfl⟩ := UnitState.register?_eq_some new
      exact .inl generated
  | _ => exact .inl generated

theorem Step.preserves_accounts (step : Step context before after) (asks : before.Asks context)
    (accounts : before.Accounts context) : after.Accounts context := by
  refine ⟨step.preserves_promised accounts.promised, fun cppType registered => ?_,
    fun cppType generated => ?_⟩
  · rcases step.accounts_for_registered registered with old | accounted
    · exact step.preserves_accounted asks accounts (accounts.registered cppType old)
    · exact accounted
  · rcases step.accounts_for_generated generated with old | accounted
    · exact step.preserves_accounted asks accounts (accounts.generated cppType old)
    · exact accounted

end

/-! ## Fragments behind their bases -/

namespace UnitContext

/-- The base of a fragment that stands behind `base` and `earlier` is bound there or unsettled. -/
def BasedAt (context : UnitContext) (events : List Event) (base earlier : List Fragment)
    (fragment : Fragment) (later : List Fragment) : Prop :=
  ∀ cppType spelling, fragment.derivation? = some (cppType, spelling) →
    context.DerivesFrom cppType spelling →
    context.IsBoundBefore (base ++ earlier) spelling ∨
      context.IsUnsettled events fragment later cppType spelling

variable {context : UnitContext} {events events' : List Event} {base base' earlier : List Fragment}
  {fragment : Fragment} {later : List Fragment}

theorem isBoundBefore_mono {before after : List Fragment} {cppType : String}
    (bound : context.IsBoundBefore before cppType) (subset : before ⊆ after) :
    context.IsBoundBefore after cppType := by
  rcases bound with ⟨fragment, member, same⟩ | earlier
  · exact .inl ⟨fragment, subset member, same⟩
  · exact .inr earlier

theorem isUnsettled_append {cppType spelling : String} (added : List Fragment)
    (unsettled : context.IsUnsettled events fragment later cppType spelling)
    (subset : events ⊆ events') :
    context.IsUnsettled events' fragment (later ++ added) cppType spelling := by
  cases unsettled with
  | named typedef => exact .named typedef
  | refused refused => exact .refused (isRefused_mono refused subset)
  | cyclic cycle => exact .cyclic cycle
  | record record => exact .record record
  | plain plain => exact .plain plain
  | deferred isClass follows attached behind =>
      obtain ⟨other, member, same⟩ := behind
      exact .deferred isClass (congrArg (· ++ added) follows) attached
        ⟨other, List.mem_append_left _ member, same⟩

theorem basedAt_append (added : List Fragment)
    (based : context.BasedAt events base earlier fragment later) (events : events ⊆ events')
    (bases : base ⊆ base') : context.BasedAt events' base' earlier fragment (later ++ added) := by
  intro cppType spelling declared derives
  rcases based cppType spelling declared derives with bound | unsettled
  · refine .inl (isBoundBefore_mono bound (List.append_subset.mpr ⟨?_, ?_⟩))
    · exact List.Subset.trans bases (List.subset_append_left _ _)
    · exact List.subset_append_right _ _
  · exact .inr (isUnsettled_append added unsettled events)

theorem basedAt_of_derivation?_eq_none (none : fragment.derivation? = none) :
    context.BasedAt events base earlier fragment later := by
  intro cppType spelling declared
  rw [none] at declared
  cases declared

end UnitContext

/-- The bases of all fragments are bound before them or unsettled; of those that wait, whatever may
come to stand behind them. -/
structure Draft.Based (context : UnitContext) (draft : Draft) : Prop where
  placed : Everywhere (context.BasedAt draft.progress.events []) draft.placed
  pending : Everywhere
    (fun earlier fragment _ =>
      context.BasedAt draft.progress.events draft.placed earlier fragment [])
    draft.unit.pending

theorem based_start (context : UnitContext) : Draft.start.Based context :=
  ⟨.nil, .nil⟩

section

variable {context : UnitContext} {before after : Draft}

/-- A base that counts as bound while it is looked for is bound or unsettled. -/
theorem isBoundBefore_or_isUnsettled {draft : Draft} {cppType spelling : String}
    (fragment : Fragment) (asks : draft.Asks context) (accounts : draft.Accounts context)
    (innermost : draft.asking = [] ∨ ∃ rest, draft.asking = cppType :: rest)
    (derives : context.DerivesFrom cppType spelling)
    (found : context.HasPlainBase cppType spelling ∨ context.isBound draft.unit spelling = true) :
    context.IsBoundBefore draft.fragments spelling ∨
      context.IsUnsettled draft.progress.events fragment [] cppType spelling := by
  -- A base that is asked for already derives from the type that asks for it now.
  have cyclic : spelling ∈ draft.asking →
      context.IsUnsettled draft.progress.events fragment [] cppType spelling := by
    intro asked
    rcases innermost with nothing | ⟨rest, parts⟩
    · rw [nothing] at asked
      cases asked
    · have chain := asks.derives
      rw [parts] at asked chain
      rcases List.mem_cons.mp asked with rfl | outer
      · exact .cyclic (.single derives)
      · exact .cyclic (.tail (transGen_of_isChain chain outer) derives)
  have settled : context.IsAccounted draft spelling →
      context.IsBoundBefore draft.fragments spelling ∨
        context.IsUnsettled draft.progress.events fragment [] cppType spelling := by
    intro accounted
    rcases accounted with ⟨other, member, same⟩ | refused | sought | promised | record
    · exact .inl (.inl ⟨other, member, same⟩)
    · exact .inr (.refused refused)
    · exact .inr (cyclic (List.mem_append_left _ sought))
    · rcases accounts.promised spelling promised with record | owned
      · exact .inr (.record record)
      · refine .inr (cyclic (List.mem_append_right _ ?_))
        rw [owned]
        exact List.mem_singleton_self _
    · exact .inr (.record record)
  rcases found with plain | bound
  · exact .inr (.plain plain)
  · simp only [isBound, boundIdentifier?, Bool.or_eq_true, List.contains_eq_mem,
      decide_eq_true_eq, Option.isSome_or] at bound
    obtain (named | generated) | here | earlier := bound
    · exact .inr (.named named)
    · exact settled (accounts.generated spelling generated)
    · exact settled (accounts.registered spelling (mem_keys_of_identifierFor? here))
    · exact .inl (.inr (Option.isSome_iff_exists.mp earlier))

theorem basedAt_instantiation {draft : Draft} {inFront earlier : List Fragment}
    {identifier name cppType : String} {base : Option String} {parent : Parent}
    {builder : Option BuilderCall} (asks : draft.Asks context) (accounts : draft.Accounts context)
    (innermost : ∃ rest, draft.asking = cppType :: rest)
    (found : context.BaseFound draft.unit cppType base)
    (last : inFront ++ earlier = draft.fragments) :
    context.BasedAt draft.progress.events inFront earlier
      (.instantiation identifier name cppType base parent builder) [] := by
  intro own spelling declared derives
  obtain ⟨_, declared, same⟩ := Option.map_eq_some_iff.mp declared
  cases same
  rw [last]
  exact isBoundBefore_or_isUnsettled _ asks accounts (.inr innermost) derives
    (found spelling declared)

theorem placed_bases_append {draft : Draft} {fragments : List Fragment}
    (based : draft.Based context)
    (behind : Everywhere (context.BasedAt draft.progress.events draft.fragments) fragments) :
    Everywhere (context.BasedAt draft.progress.events []) (draft.fragments ++ fragments) := by
  refine .append (.append ?_ ?_) behind
  · refine based.placed.imp fun earlier fragment later _ holds => ?_
    have events := List.Subset.refl draft.progress.events
    have waiting := basedAt_append draft.unit.pending holds events (List.Subset.refl _)
    exact basedAt_append fragments waiting events (List.Subset.refl _)
  · refine based.pending.imp fun earlier fragment later _ holds => ?_
    exact basedAt_append (later ++ fragments) holds (List.Subset.refl _) (List.Subset.refl _)

/-- The base of a class is bound before it, or stands behind it together with what is attached to
the class. -/
theorem basedAt_class {draft : Draft} {binding : ClassBinding} (asks : draft.Asks context)
    (accounts : draft.Accounts context) (settled : draft.asking = [])
    (found : context.BaseFound draft.unit binding.cppType binding.base) :
    context.BasedAt draft.progress.events []
      (draft.placed ++ draft.unit.pending.takeWhile (goesBefore binding.identifier))
      (.class_ binding) (draft.unit.pending.dropWhile (goesBefore binding.identifier)) := by
  intro cppType spelling declared derives
  obtain ⟨base, declared, same⟩ := Option.map_eq_some_iff.mp declared
  cases same
  have known := isBoundBefore_or_isUnsettled (.class_ binding) asks accounts
    (.inl settled) derives (found spelling declared)
  rcases known with (⟨other, member, same⟩ | earlier) | unsettled
  · rw [Draft.fragments, ← List.takeWhile_append_dropWhile (p := goesBefore binding.identifier)
      (l := draft.unit.pending), ← List.append_assoc] at member
    rcases List.mem_append.mp member with inFront | behind
    · exact .inl (.inl ⟨other, inFront, same⟩)
    -- The first of those behind the class is there because it is attached to the class.
    · cases rest : draft.unit.pending.dropWhile (goesBefore binding.identifier) with
      | nil =>
          rw [rest] at behind
          cases behind
      | cons next others =>
          have stays := List.head?_dropWhile_not (goesBefore binding.identifier) draft.unit.pending
          rw [rest] at stays behind
          have attached : next.parent = .class_ binding.identifier := by
            simpa [goesBefore] using stays
          exact .inr (.deferred rfl rfl attached ⟨other, behind, same⟩)
  · exact .inl (.inr earlier)
  · exact .inr (isUnsettled_append _ unsettled (List.Subset.refl _))

theorem placed_bases_class {draft : Draft} {binding : ClassBinding} (based : draft.Based context)
    (asks : draft.Asks context) (accounts : draft.Accounts context) (settled : draft.asking = [])
    (found : context.BaseFound draft.unit binding.cppType binding.base) :
    Everywhere (context.BasedAt draft.progress.events [])
      (draft.placed ++ draft.unit.pending.takeWhile (goesBefore binding.identifier)
        ++ .class_ binding :: draft.unit.pending.dropWhile (goesBefore binding.identifier)) := by
  have here := basedAt_class asks accounts settled found
  have pending := based.pending
  rw [← List.takeWhile_append_dropWhile (p := goesBefore binding.identifier)
    (l := draft.unit.pending)] at pending
  rw [← List.singleton_append]
  refine .append (.append ?_ ?_) (.append (.singleton ?_) ?_)
  · refine based.placed.imp fun earlier fragment later _ holds => ?_
    rw [List.append_assoc]
    exact basedAt_append _ holds (List.Subset.refl _) (List.Subset.refl _)
  · refine pending.left.imp fun earlier fragment later _ holds => ?_
    exact basedAt_append (later ++ _) holds (List.Subset.refl _) (List.Subset.refl _)
  · rw [List.append_nil]
    exact here
  · refine pending.right.imp fun earlier fragment later _ holds => ?_
    intro cppType spelling declared derives
    rcases holds cppType spelling declared derives with bound | unsettled
    · refine .inl (isBoundBefore_mono bound fun other member => ?_)
      simp only [List.mem_append] at member ⊢
      tauto
    · exact .inr (isUnsettled_append later unsettled (List.Subset.refl _))

theorem Step.preserves_placed_bases (step : Step context before after) (asks : before.Asks context)
    (accounts : before.Accounts context) (based : before.Based context) :
    Everywhere (context.BasedAt after.progress.events []) after.placed := by
  have kept : Everywhere (context.BasedAt after.progress.events []) before.placed := by
    refine based.placed.imp fun earlier fragment later _ holds => ?_
    have more := basedAt_append [] holds step.events_subset (List.Subset.refl _)
    rwa [List.append_nil] at more
  cases step with
  | placeClass binding settled _ found =>
      exact placed_bases_class based asks accounts settled found
  | placeTypedef name builder owner seeking _ found =>
      have innermost : ∃ rest, before.asking = _ :: rest :=
        ⟨[], by rw [asking, seeking, owner]; rfl⟩
      refine placed_bases_append based (.singleton ?_)
      exact basedAt_instantiation asks accounts innermost found (List.append_nil _)
  | placeEnum name values idle registered =>
      obtain ⟨-, -, rfl⟩ := UnitState.register?_eq_some registered
      change Everywhere _ (before.fragments ++ [_])
      exact placed_bases_append based (.singleton (basedAt_of_derivation?_eq_none rfl))
  | placeLoose fragments idle loose =>
      refine placed_bases_append based fun earlier fragment later parts => ?_
      refine basedAt_of_derivation?_eq_none ?_
      have member : fragment ∈ fragments := by simp [parts]
      cases fragment with
      | class_ => cases (loose _ member).1
      | instantiation => cases (loose _ member).1
      | _ => rfl
  | _ => exact kept

theorem pending_bases_enqueue {draft : Draft} {fragment : Fragment} (based : draft.Based context)
    (last : context.BasedAt draft.progress.events draft.placed draft.unit.pending fragment []) :
    Everywhere
      (fun earlier fragment _ =>
        context.BasedAt draft.progress.events draft.placed earlier fragment [])
      (draft.unit.pending ++ [fragment]) := by
  refine .append based.pending (.singleton ?_)
  rw [List.append_nil]
  exact last

theorem Step.preserves_pending_bases (step : Step context before after) (asks : before.Asks context)
    (accounts : before.Accounts context) (based : before.Based context) :
    Everywhere
      (fun earlier fragment _ =>
        context.BasedAt after.progress.events after.placed earlier fragment [])
      after.unit.pending := by
  cases step with
  | @note progress quiet =>
      change Everywhere _ progress.unit.pending
      rw [quiet.pending]
      refine based.pending.imp fun earlier fragment later _ holds => ?_
      exact basedAt_append [] holds quiet.events.subset (List.Subset.refl _)
  | openModule =>
      exact pending_bases_enqueue based (basedAt_of_derivation?_eq_none rfl)
  | begin => exact based.pending
  | finish qualified name builder seeking registered found =>
      obtain ⟨-, -, rfl⟩ := UnitState.register?_eq_some registered
      have innermost : ∃ rest, before.asking = _ :: rest := ⟨_, by rw [asking, seeking]; rfl⟩
      exact pending_bases_enqueue based
        (basedAt_instantiation asks accounts innermost found rfl)
  | refuse =>
      refine based.pending.imp fun earlier fragment later _ holds => ?_
      exact basedAt_append [] holds (List.subset_append_left _ _) (List.Subset.refl _)
  | promiseClass _ _ _ _ _ registered =>
      obtain ⟨-, -, rfl⟩ := UnitState.register?_eq_some registered
      exact based.pending
  | settle => exact based.pending
  | promiseOpaque _ _ _ registered =>
      obtain ⟨-, -, rfl⟩ := UnitState.register?_eq_some registered
      exact based.pending
  | promiseTypedef _ _ _ _ _ registered =>
      obtain ⟨-, -, rfl⟩ := UnitState.register?_eq_some registered
      exact based.pending
  | placeClass => exact .nil
  | placeTypedef => exact .nil
  | placeEnum => exact .nil
  | placeLoose => exact .nil

/-- A draft in which bases are kept in order. -/
structure Draft.KeepsBases (context : UnitContext) (draft : Draft) : Prop where
  asks : draft.Asks context
  accounts : draft.Accounts context
  based : draft.Based context

theorem keepsBases_start (context : UnitContext) : Draft.start.KeepsBases context :=
  ⟨asks_of_seeking_eq_nil rfl, accounts_start context, based_start context⟩

theorem Step.preserves_bases (step : Step context before after)
    (keeps : before.KeepsBases context) : after.KeepsBases context := by
  obtain ⟨asks, accounts, based⟩ := keeps
  exact ⟨step.preserves_asks asks, step.preserves_accounts asks accounts,
    step.preserves_placed_bases asks accounts based,
    step.preserves_pending_bases asks accounts based⟩

theorem Steps.preserves_bases (steps : Steps context before after)
    (keeps : before.KeepsBases context) : after.KeepsBases context := by
  induction steps with
  | refl => exact keeps
  | tail _ step ih => exact step.preserves_bases ih

end

/-! ## Units -/

theorem mem_boundTypes_of_cppType?_eq_some {fragment : Fragment} {cppType : String}
    (same : fragment.cppType? = some cppType) :
    cppType ∈ fragment.boundTypes.map Prod.fst := by
  cases fragment with
  | class_ binding =>
      cases same
      exact List.mem_cons_self
  | enum =>
      cases same
      exact List.mem_singleton_self _
  | instantiation =>
      cases same
      exact List.mem_singleton_self _
  | _ => cases same

/-- A type that is bound before a fragment is not bound by it or behind it. -/
theorem not_isBound_behind {earlier behind : List Fragment} {cppType : String}
    (distinct : ((allBound (earlier ++ behind)).map Prod.fst).Nodup) {fragment other : Fragment}
    (member : fragment ∈ earlier) (same : fragment.cppType? = some cppType)
    (here : other ∈ behind) : other.cppType? ≠ some cppType := by
  intro again
  rw [allBound_append, List.map_append, List.nodup_append] at distinct
  refine distinct.2.2 cppType ?_ cppType ?_ rfl
  · obtain ⟨entry, bound, rfl⟩ := List.mem_map.mp (mem_boundTypes_of_cppType?_eq_some same)
    exact List.mem_map_of_mem (List.mem_flatMap.mpr ⟨fragment, member, bound⟩)
  · obtain ⟨entry, bound, rfl⟩ := List.mem_map.mp (mem_boundTypes_of_cppType?_eq_some again)
    exact List.mem_map_of_mem (List.mem_flatMap.mpr ⟨other, here, bound⟩)

/-- Every base that is an instantiation is bound before what derives from it if and only if every
unsettled one is bound at all, and neither by the fragment that derives from it nor by a later one,
unless an earlier unit has bound it too. -/
theorem bases_come_first_iff {depth : Nat} {options : BindOptions} {index : ProjectIndex}
    {unit : SourceUnit} {relative : String} {result : UnitResult} {context : UnitContext}
    (ofUnit : context = .ofUnit depth unit options index relative)
    (run : generateUnit depth options index unit relative = some result) :
    (∀ earlier fragment later, result.bindings.fragments = earlier ++ fragment :: later →
        ∀ cppType base, fragment.derivation? = some (cppType, base) →
          context.DerivesFrom cppType base → context.IsBoundBefore earlier base) ↔
      ∀ earlier fragment later, result.bindings.fragments = earlier ++ fragment :: later →
        ∀ cppType base, fragment.derivation? = some (cppType, base) →
          context.DerivesFrom cppType base →
          context.IsUnsettled result.events fragment later cppType base →
          context.IsBoundBefore result.bindings.fragments base ∧
            ∀ other ∈ fragment :: later, other.cppType? = some base →
              ∃ identifier, index.knownClass? base = some identifier := by
  subst ofUnit
  obtain ⟨progress, visitRun, -, events⟩ := generateUnit_eq_some run
  obtain ⟨sound, bound⟩ := balanced_of_visitUnit visitRun
  obtain ⟨steps, nothing⟩ := UnitContext.visitUnit_steps visitRun
  have keeps := Steps.preserves_bases steps (keepsBases_start _)
  constructor
  · intro first earlier fragment later parts cppType base declared derives _
    have before := first earlier fragment later parts cppType base declared derives
    refine ⟨isBoundBefore_mono before (by simp [parts]), fun other behind again => ?_⟩
    rcases before with ⟨maker, member, same⟩ | known
    · have distinct := (bound.map Prod.fst).nodup_iff.mpr sound.types
      rw [parts] at distinct
      exact absurd again (not_isBound_behind distinct member same behind)
    · exact known
  · intro settled earlier fragment later parts cppType base declared derives
    rcases keeps.based.placed earlier fragment later parts cppType base declared derives with
      before | unsettled
    · exact before
    · have loud := isUnsettled_append [] unsettled events
      rw [List.append_nil] at loud
      obtain ⟨made, known⟩ :=
        settled earlier fragment later parts cppType base declared derives loud
      rcases made with ⟨other, member, same⟩ | indexed
      · rw [parts] at member
        rcases List.mem_append.mp member with inFront | behind
        · exact .inl ⟨other, inFront, same⟩
        · exact .inr (known other behind same)
      · exact .inr indexed

theorem geometry_bases_come_first :
    ∃ result, generateUnit 2 .plain .empty geometryUnit "unit.hpp" = some result ∧
      ∀ earlier fragment later, result.bindings.fragments = earlier ++ fragment :: later →
        ∀ cppType base, fragment.derivation? = some (cppType, base) →
          (UnitContext.ofUnit 2 geometryUnit .plain .empty "unit.hpp").DerivesFrom cppType base →
          (UnitContext.ofUnit 2 geometryUnit .plain .empty "unit.hpp").IsBoundBefore earlier
            base := by
  have apart : (generateUnit 2 .plain .empty geometryUnit "unit.hpp").map (fun result =>
      decide (result.bindings.fragments.Pairwise (fun first second =>
          ∀ declared ∈ first.derivation?, second.cppType? ≠ some declared.2) ∧
        ∀ fragment ∈ result.bindings.fragments, ∀ declared ∈ fragment.derivation?,
          fragment.cppType? ≠ some declared.2 ∧
            ∃ other ∈ result.bindings.fragments, other.cppType? = some declared.2)) =
        some true := by
    decide +kernel
  obtain ⟨result, run, decided⟩ := Option.map_eq_some_iff.mp apart
  obtain ⟨behind, inside⟩ := of_decide_eq_true decided
  refine ⟨result, run, (bases_come_first_iff rfl run).mpr ?_⟩
  intro earlier fragment later parts cppType base declared _ _
  obtain ⟨differs, made⟩ := inside fragment (by simp [parts]) _ declared
  refine ⟨.inl made, fun other member same => ?_⟩
  rw [parts, List.pairwise_append, List.pairwise_cons] at behind
  rcases List.mem_cons.mp member with rfl | following
  · exact absurd same differs
  · exact absurd same (behind.2.1.1 other following _ declared)

/-- A class whose base has a typedef behind the class. -/
def typedefBaseUnit : SourceUnit :=
  .ofSteps
    [.classTemplate 0 "Base" ["T"],
     .specialization 1 "int",
     .named 3,
     .add 0 .structDecl "D",
     .base 4 1,
     .newTypedef .typedefDecl 0 "BaseInt" 1]

theorem typedef_base_comes_late :
    ∃ result, generateUnit 1 .plain .empty typedefBaseUnit "unit.hpp" = some result ∧
      ∃ fragment later, result.bindings.fragments = [] ++ fragment :: later ∧
        fragment.derivation? = some ("D", "Base<int>") ∧
        (UnitContext.ofUnit 1 typedefBaseUnit .plain .empty "unit.hpp").DerivesFrom "D"
          "Base<int>" ∧
        ¬ (UnitContext.ofUnit 1 typedefBaseUnit .plain .empty "unit.hpp").IsBoundBefore []
          "Base<int>" := by
  have derivations : (generateUnit 1 .plain .empty typedefBaseUnit "unit.hpp").map
      (fun result => result.bindings.fragments.map (·.derivation?)) =
        some [some ("D", "Base<int>"), none] := by
    decide +kernel
  obtain ⟨result, run, found⟩ := Option.map_eq_some_iff.mp derivations
  obtain ⟨fragment, later, parts, declared, -⟩ := List.map_eq_cons_iff.mp found
  refine ⟨result, run, fragment, later, parts, declared, ?_, ?_⟩
  · refine ⟨1, ["int"], .inl ⟨4, ?_⟩, ?_⟩
    · decide +kernel
    · decide +kernel
  · rintro (⟨other, member, -⟩ | ⟨identifier, known⟩)
    · cases member
    · cases known

end Bindery
