import Bindery.Proofs.Binding.Ledger
import Bindery.Proofs.Binding.Position
import Mathlib.Data.List.TakeWhile

/-!
# The order of scopes

A fragment is attached to a module or a class that an earlier fragment defines, or that an earlier
unit has bound.  There is one exception: what waits while a class is made may be attached to an
opaque class inside it, and then it stands before the class.
-/

set_option autoImplicit false
set_option maxRecDepth 100000

namespace Bindery

open Draft Fragment

/-! ## Defined scopes -/

namespace Fragment

/-- The identifiers that fragments define. -/
def allDefined (fragments : List Fragment) : List String :=
  fragments.flatMap definedIdentifiers

/-- The identifiers of the opaque classes inside a class, and that of an instantiation. -/
def innerIdentifiers : Fragment → List String
  | class_ binding => binding.opaqueClasses.map (·.identifier)
  | instantiation identifier _ _ _ _ _ => [identifier]
  | _ => []

/-- The identifiers that the fragments have inside. -/
def allInner (fragments : List Fragment) : List String :=
  fragments.flatMap innerIdentifiers

theorem allDefined_subset {before after : List Fragment} (subset : before ⊆ after) :
    allDefined before ⊆ allDefined after := by
  intro identifier member
  obtain ⟨fragment, found, defined⟩ := List.mem_flatMap.mp member
  exact List.mem_flatMap.mpr ⟨fragment, subset found, defined⟩

theorem mem_definedIdentifiers_of_mem_boundTypes {fragment : Fragment}
    {entry : String × String} (bound : entry ∈ fragment.boundTypes) :
    entry.2 ∈ fragment.definedIdentifiers := by
  cases fragment with
  | class_ binding =>
      rcases List.mem_cons.mp bound with rfl | inside
      · exact List.mem_cons_self
      · obtain ⟨inner, found, rfl⟩ := List.mem_map.mp inside
        exact List.mem_cons_of_mem _ (List.mem_map_of_mem found)
  | enum => simp_all [boundTypes, definedIdentifiers, identifier?]
  | instantiation => simp_all [boundTypes, definedIdentifiers, identifier?]
  | _ => cases bound

/-- A fragment whose identifiers are those of the types that it binds, or that of a module. -/
def IsNamed (fragment : Fragment) : Prop :=
  ∀ identifier ∈ fragment.definedIdentifiers,
    identifier ∈ fragment.boundTypes.map Prod.snd ∨
      ∃ qualified, identifier = Name.moduleIdentifier qualified

theorem isNamed_singleton {fragment : Fragment} (named : fragment.IsNamed) :
    ∀ other ∈ [fragment], other.IsNamed := by
  intro other member
  cases List.mem_singleton.mp member
  exact named

theorem mem_allDefined_of_mem_allBound {fragments : List Fragment} {entry : String × String}
    (bound : entry ∈ allBound fragments) : entry.2 ∈ allDefined fragments := by
  obtain ⟨fragment, found, inside⟩ := List.mem_flatMap.mp bound
  exact List.mem_flatMap.mpr ⟨fragment, found, mem_definedIdentifiers_of_mem_boundTypes inside⟩

theorem exists_mem_allBound_of_mem_allInner {fragments : List Fragment} {identifier : String}
    (inside : identifier ∈ allInner fragments) :
    ∃ cppType, (cppType, identifier) ∈ allBound fragments := by
  obtain ⟨fragment, found, here⟩ := List.mem_flatMap.mp inside
  cases fragment with
  | class_ binding =>
      obtain ⟨inner, member, rfl⟩ := List.mem_map.mp here
      exact ⟨inner.cppType, List.mem_flatMap.mpr
        ⟨_, found, List.mem_cons_of_mem _ (List.mem_map_of_mem member)⟩⟩
  | instantiation _ _ cppType =>
      cases List.mem_singleton.mp here
      exact ⟨cppType, List.mem_flatMap.mpr ⟨_, found, List.mem_singleton_self _⟩⟩
  | _ => cases here

end Fragment

namespace Parent

/-- Whether a parent is defined by fragments, or by an earlier unit. -/
def IsDefined (index : ProjectIndex) (fragments : List Fragment) : Parent → Prop
  | global => True
  | module_ identifier => identifier ∈ allDefined fragments
  | class_ identifier =>
      identifier ∈ allDefined fragments ∨ ∃ cppType, index.knownClass? cppType = some identifier

/-- Whether a parent is one of some classes. -/
def IsAmong (identifiers : List String) (parent : Parent) : Prop :=
  ∃ identifier ∈ identifiers, parent = class_ identifier

variable {index : ProjectIndex} {parent : Parent}

theorem IsDefined.mono {before after : List Fragment} (defined : parent.IsDefined index before)
    (subset : before ⊆ after) : parent.IsDefined index after := by
  cases parent with
  | global => trivial
  | module_ identifier => exact allDefined_subset subset defined
  | class_ identifier =>
      rcases defined with here | earlier
      · exact .inl (allDefined_subset subset here)
      · exact .inr earlier

theorem IsAmong.mono {before after : List String} (among : parent.IsAmong before)
    (subset : before ⊆ after) : parent.IsAmong after := by
  obtain ⟨identifier, member, same⟩ := among
  exact ⟨identifier, subset member, same⟩

theorem isDefined_of_isAmong {fragments : List Fragment} {identifiers : List String}
    (among : parent.IsAmong identifiers) (defined : identifiers ⊆ allDefined fragments) :
    parent.IsDefined index fragments := by
  obtain ⟨identifier, member, rfl⟩ := among
  exact .inl (defined member)

end Parent

/-! ## Fragments in their place -/

/-- A fragment behind `base` whose parent is defined before it, is inside a later fragment, or is
one of the classes that are still to come. -/
def InPlace (index : ProjectIndex) (base : List Fragment) (awaited : List String)
    (earlier : List Fragment) (fragment : Fragment) (later : List Fragment) : Prop :=
  fragment.parent.IsDefined index (base ++ earlier) ∨
    fragment.parent.IsAmong (allInner later ++ awaited)

section

variable {index : ProjectIndex} {base : List Fragment} {awaited : List String}
  {fragments left right : List Fragment}

theorem inPlace_mono {base' : List Fragment} {awaited' : List String}
    (inPlace : Everywhere (InPlace index base awaited) fragments) (bases : base ⊆ base')
    (subset : awaited ⊆ awaited') : Everywhere (InPlace index base' awaited') fragments := by
  refine inPlace.imp fun earlier fragment later _ holds => ?_
  rcases holds with defined | among
  · refine .inl (defined.mono ?_)
    exact List.append_subset.mpr ⟨List.Subset.trans bases (List.subset_append_left _ _),
      List.subset_append_right _ _⟩
  · refine .inr (among.mono ?_)
    exact List.append_subset.mpr ⟨List.subset_append_left _ _,
      List.Subset.trans subset (List.subset_append_right _ _)⟩

theorem inPlace_append
    (inLeft : Everywhere (InPlace index base (allInner right ++ awaited)) left)
    (inRight : Everywhere (InPlace index (base ++ left) awaited) right) :
    Everywhere (InPlace index base awaited) (left ++ right) := by
  refine .append (inLeft.imp fun earlier fragment later _ holds => ?_)
    (inRight.imp fun earlier fragment later _ holds => ?_)
  · rw [InPlace, allInner, List.flatMap_append, List.append_assoc]
    exact holds
  · rw [InPlace, List.append_assoc] at holds
    exact holds

theorem inPlace_singleton {fragment : Fragment}
    (known : fragment.parent.IsDefined index base ∨ fragment.parent.IsAmong awaited) :
    Everywhere (InPlace index base awaited) [fragment] := by
  refine .singleton ?_
  rw [InPlace, List.append_nil]
  exact known

end

/-! ## Ordered drafts -/

/-- Every module that is open has its fragment, and every fragment is in its place; those that wait
may be attached to what is promised. -/
structure Draft.InOrder (index : ProjectIndex) (draft : Draft) : Prop where
  modules : ∀ qualified ∈ draft.unit.namespaces,
    Name.moduleIdentifier qualified ∈ allDefined draft.fragments
  placed : Everywhere (InPlace index [] []) draft.placed
  pending : Everywhere (InPlace index draft.placed (draft.promised.map Prod.snd))
    draft.unit.pending
  home : draft.home.IsDefined index draft.placed

theorem inOrder_start (index : ProjectIndex) : Draft.start.InOrder index :=
  ⟨nofun, .nil, .nil, trivial⟩

section

variable {context : UnitContext} {before after : Draft}

theorem isDefined_of_knownScope {draft : Draft} {parent : Parent} (balanced : draft.Balanced)
    (order : draft.InOrder context.index) (scope : context.KnownScope draft.unit parent) :
    parent.IsDefined context.index draft.fragments ∨
      parent.IsAmong (draft.promised.map Prod.snd) := by
  cases parent with
  | global => exact .inl trivial
  | module_ identifier =>
      obtain ⟨qualified, member, rfl⟩ := scope
      exact .inl (order.modules qualified member)
  | class_ identifier =>
      rcases scope with ⟨cppType, bound⟩ | earlier
      · have member := (lookup_eq_some_iff_mem balanced.sound.types).mp bound
        rcases List.mem_append.mp (balanced.ledger.subset member) with made | promised
        · exact .inl (.inl (mem_allDefined_of_mem_allBound made))
        · exact .inr ⟨identifier, List.mem_map.mpr ⟨_, promised, rfl⟩, rfl⟩
      · exact .inl (.inr earlier)

theorem isDefined_of_idle {draft : Draft} {parent : Parent} (balanced : draft.Balanced)
    (order : draft.InOrder context.index) (idle : draft.Idle)
    (scope : context.KnownScope draft.unit parent) :
    parent.IsDefined context.index draft.fragments := by
  rcases isDefined_of_knownScope balanced order scope with defined | ⟨identifier, member, -⟩
  · exact defined
  · rw [idle.promised] at member
    cases member

theorem pending_enqueue {draft : Draft} {fragment : Fragment} (balanced : draft.Balanced)
    (order : draft.InOrder context.index)
    (scope : context.KnownScope draft.unit fragment.parent) :
    Everywhere (InPlace context.index draft.placed (draft.promised.map Prod.snd))
      (draft.unit.pending ++ [fragment]) :=
  inPlace_append
    (inPlace_mono order.pending (List.Subset.refl _) (List.subset_append_right _ _))
    (inPlace_singleton (isDefined_of_knownScope balanced order scope))

theorem placed_append {draft : Draft} {index : ProjectIndex} {fragments : List Fragment}
    (order : draft.InOrder index)
    (fulfilled : draft.promised.map Prod.snd ⊆ allInner fragments)
    (inPlace : Everywhere (InPlace index draft.fragments []) fragments) :
    Everywhere (InPlace index [] []) (draft.fragments ++ fragments) := by
  refine inPlace_append (inPlace_append ?_ ?_) inPlace
  · exact inPlace_mono order.placed (List.Subset.refl _) (List.nil_subset _)
  · rw [List.append_nil]
    exact inPlace_mono order.pending (List.Subset.refl _) fulfilled

/-- What stays in front of a class may be attached to an opaque class inside it. -/
theorem isAmong_of_goesBefore {binding : ClassBinding} {fragment : Fragment}
    {promised : List (String × String)} (goes : goesBefore binding.identifier fragment = true)
    (fulfilled : (Fragment.class_ binding).boundTypes = promised)
    (among : fragment.parent.IsAmong (promised.map Prod.snd)) :
    fragment.parent.IsAmong (Fragment.class_ binding).innerIdentifiers := by
  obtain ⟨identifier, member, attached⟩ := among
  subst fulfilled
  rw [boundTypes, List.map_cons, List.mem_cons, List.map_map] at member
  rcases member with rfl | inside
  · simp [goesBefore, attached] at goes
  · exact ⟨identifier, inside, attached⟩

/-- A class finds its place in front of what is attached to it, and behind the rest. -/
theorem placed_class {draft : Draft} {index : ProjectIndex} {binding : ClassBinding}
    (order : draft.InOrder index)
    (fulfilled : (Fragment.class_ binding).boundTypes = draft.promised)
    (home : binding.parent = draft.home) :
    Everywhere (InPlace index [] [])
      (draft.placed ++ (draft.unit.pending.takeWhile (goesBefore binding.identifier)
        ++ ([.class_ binding]
          ++ draft.unit.pending.dropWhile (goesBefore binding.identifier)))) := by
  have pending := order.pending
  rw [← List.takeWhile_append_dropWhile (p := goesBefore binding.identifier)
    (l := draft.unit.pending)] at pending
  refine inPlace_append (inPlace_mono order.placed (List.Subset.refl _) (List.nil_subset _)) ?_
  -- What is promised is inside the class for those in front of it, and made for those behind it.
  refine .append (pending.left.imp fun earlier fragment later member holds => ?_)
    (.append (.singleton ?_) (pending.right.imp fun earlier fragment later member holds => ?_))
  · rcases holds with defined | ⟨identifier, among, attached⟩
    · exact .inl defined
    · refine .inr ?_
      rcases List.mem_append.mp among with inside | promised
      · refine ⟨identifier, ?_, attached⟩
        simp only [allInner, List.flatMap_append, List.mem_append] at inside ⊢
        tauto
      · have goes := List.mem_takeWhile_imp member
        obtain ⟨inner, found, same⟩ :=
          isAmong_of_goesBefore goes fulfilled ⟨identifier, promised, attached⟩
        refine ⟨inner, ?_, same⟩
        simp only [allInner, List.flatMap_append, List.flatMap_singleton, List.mem_append]
        exact .inl (.inr (.inl found))
  · refine .inl ?_
    change binding.parent.IsDefined _ _
    rw [home]
    exact order.home.mono (by simp)
  · rcases holds with defined | ⟨identifier, among, attached⟩
    · refine .inl (defined.mono fun other => ?_)
      simp only [List.mem_append]
      tauto
    · rcases List.mem_append.mp among with inside | promised
      · exact .inr ⟨identifier, List.mem_append_left _ inside, attached⟩
      · refine .inl (Parent.isDefined_of_isAmong ⟨identifier, promised, attached⟩ ?_)
        intro bound found
        rw [← fulfilled] at found
        obtain ⟨entry, inside, rfl⟩ := List.mem_map.mp found
        refine List.mem_flatMap.mpr ⟨.class_ binding, by simp, ?_⟩
        exact mem_definedIdentifiers_of_mem_boundTypes inside

/-- A draft has the fragments of another, in any order, and more whose identifiers are those of
types or modules. -/
def Draft.Gains (before after : Draft) : Prop :=
  ∃ added, after.fragments.Perm (before.fragments ++ added) ∧
    ∀ fragment ∈ added, fragment.IsNamed

theorem gains_of_eq (same : after.fragments = before.fragments) : before.Gains after := by
  refine ⟨[], ?_, nofun⟩
  rw [same, List.append_nil]

theorem gains_singleton {fragment : Fragment}
    (same : after.fragments = before.fragments ++ [fragment]) (named : fragment.IsNamed) :
    before.Gains after :=
  ⟨[fragment], .of_eq same, isNamed_singleton named⟩

theorem place_class_perm (draft : Draft) (binding : ClassBinding) :
    (Draft.fragments ⟨draft.placed
        ++ draft.unit.pending.takeWhile (goesBefore binding.identifier)
        ++ .class_ binding :: draft.unit.pending.dropWhile (goesBefore binding.identifier),
      [], .global, none, [], draft.progress.release⟩).Perm
      (draft.fragments ++ [.class_ binding]) := by
  change (draft.placed ++ _ ++ Fragment.class_ binding :: _ ++ []).Perm _
  rw [List.append_nil]
  refine List.perm_middle.trans (List.Perm.trans ?_ (List.perm_append_singleton _ _).symm)
  rw [List.append_assoc, List.takeWhile_append_dropWhile]
  exact .refl _

theorem Step.gains (step : Step context before after) : before.Gains after := by
  cases step with
  | note quiet => exact gains_of_eq (congrArg (before.placed ++ ·) quiet.pending)
  | openModule id name new scope =>
      refine gains_singleton (List.append_assoc _ _ _).symm fun identifier member => ?_
      exact .inr ⟨_, List.mem_singleton.mp member⟩
  | begin => exact gains_of_eq rfl
  | finish qualified name builder seeking registered found scope =>
      obtain ⟨-, -, rfl⟩ := UnitState.register?_eq_some registered
      exact gains_singleton (List.append_assoc _ _ _).symm fun identifier member => .inl member
  | refuse => exact gains_of_eq rfl
  | promiseClass _ _ _ _ _ registered =>
      obtain ⟨-, -, rfl⟩ := UnitState.register?_eq_some registered
      exact gains_of_eq rfl
  | settle => exact gains_of_eq rfl
  | promiseOpaque _ _ _ registered =>
      obtain ⟨-, -, rfl⟩ := UnitState.register?_eq_some registered
      exact gains_of_eq rfl
  | placeClass binding =>
      refine ⟨[.class_ binding], place_class_perm before binding, isNamed_singleton ?_⟩
      intro identifier member
      rw [boundTypes, List.map_cons, List.map_map]
      exact .inl member
  | promiseTypedef _ _ _ _ _ registered =>
      obtain ⟨-, -, rfl⟩ := UnitState.register?_eq_some registered
      exact gains_of_eq rfl
  | placeTypedef name builder =>
      exact gains_singleton (fragments_place before _) fun identifier member => .inl member
  | placeEnum name values _ registered =>
      obtain ⟨-, -, rfl⟩ := UnitState.register?_eq_some registered
      exact gains_singleton (fragments_place _ _) fun identifier member => .inl member
  | placeLoose fragments _ loose =>
      refine ⟨fragments, .of_eq (fragments_place before _), ?_⟩
      intro fragment member identifier defined
      cases fragment with
      | function => cases defined
      | constant => cases defined
      | variable_ => cases defined
      | _ => cases (loose _ member).1

theorem Step.fragments_subset (step : Step context before after) :
    before.fragments ⊆ after.fragments := by
  obtain ⟨added, perm, -⟩ := step.gains
  exact List.Subset.trans (List.subset_append_left _ _) perm.symm.subset

theorem Step.preserves_modules (step : Step context before after)
    (modules : ∀ qualified ∈ before.unit.namespaces,
      Name.moduleIdentifier qualified ∈ allDefined before.fragments) :
    ∀ qualified ∈ after.unit.namespaces,
      Name.moduleIdentifier qualified ∈ allDefined after.fragments := by
  have kept : ∀ qualified ∈ before.unit.namespaces,
      Name.moduleIdentifier qualified ∈ allDefined after.fragments := fun qualified member =>
    allDefined_subset step.fragments_subset (modules qualified member)
  cases step with
  | note quiet => exact fun qualified member => kept qualified (quiet.namespaces ▸ member)
  | openModule id name new scope =>
      intro qualified member
      rcases List.mem_append.mp member with old | opened
      · exact kept qualified old
      · cases List.mem_singleton.mp opened
        refine List.mem_flatMap.mpr ⟨_, List.mem_append_right _ (List.mem_append_right _
          (List.mem_singleton_self _)), List.mem_singleton_self _⟩
  | begin => exact kept
  | finish _ _ _ _ registered =>
      obtain ⟨-, -, rfl⟩ := UnitState.register?_eq_some registered
      exact kept
  | refuse => exact kept
  | promiseClass _ _ _ _ _ registered =>
      obtain ⟨-, -, rfl⟩ := UnitState.register?_eq_some registered
      exact kept
  | settle => exact kept
  | promiseOpaque _ _ _ registered =>
      obtain ⟨-, -, rfl⟩ := UnitState.register?_eq_some registered
      exact kept
  | placeClass binding => exact kept
  | promiseTypedef _ _ _ _ _ registered =>
      obtain ⟨-, -, rfl⟩ := UnitState.register?_eq_some registered
      exact kept
  | placeTypedef => exact kept
  | placeEnum _ _ _ registered =>
      obtain ⟨-, -, rfl⟩ := UnitState.register?_eq_some registered
      exact kept
  | placeLoose => exact kept

theorem Step.preserves_placed (step : Step context before after) (balanced : before.Balanced)
    (order : before.InOrder context.index) :
    Everywhere (InPlace context.index [] []) after.placed := by
  cases step with
  | placeClass binding _ fulfilled _ home =>
      have placed := placed_class order fulfilled home
      rw [← List.append_assoc] at placed
      exact placed
  | placeTypedef name builder _ _ promised _ =>
      refine placed_append order ?_ (inPlace_singleton (.inl ?_))
      · simp [promised, allInner, innerIdentifiers]
      · exact order.home.mono (List.subset_append_left _ _)
  | placeEnum name values idle registered scope =>
      obtain ⟨-, -, rfl⟩ := UnitState.register?_eq_some registered
      change Everywhere _ (before.fragments ++ [_])
      refine placed_append order ?_ (inPlace_singleton (.inl ?_))
      · simp [idle.promised]
      · exact isDefined_of_idle balanced order idle scope
  | placeLoose fragments idle loose =>
      refine placed_append order ?_ ?_
      · simp [idle.promised]
      · intro earlier fragment later parts
        have member : fragment ∈ fragments := by simp [parts]
        have defined := isDefined_of_idle balanced order idle (loose fragment member).2
        exact .inl (defined.mono (List.subset_append_left _ _))
  | _ => exact order.placed

theorem Step.preserves_pending (step : Step context before after) (balanced : before.Balanced)
    (order : before.InOrder context.index) :
    Everywhere (InPlace context.index after.placed (after.promised.map Prod.snd))
      after.unit.pending := by
  cases step with
  | @note progress quiet =>
      have same : (before.advance progress).unit.pending = before.unit.pending := quiet.pending
      rw [same]
      exact order.pending
  | openModule id name new scope => exact pending_enqueue balanced order scope
  | begin => exact order.pending
  | finish _ _ _ _ registered _ scope =>
      obtain ⟨-, -, rfl⟩ := UnitState.register?_eq_some registered
      exact pending_enqueue balanced order scope
  | refuse => exact order.pending
  | promiseClass _ _ empty _ _ registered =>
      obtain ⟨-, -, rfl⟩ := UnitState.register?_eq_some registered
      change Everywhere _ before.unit.pending
      rw [empty]
      exact .nil
  | settle => exact order.pending
  | promiseOpaque _ _ _ registered =>
      obtain ⟨-, -, rfl⟩ := UnitState.register?_eq_some registered
      refine inPlace_mono order.pending (List.Subset.refl _) ?_
      rw [List.map_append]
      exact List.subset_append_left _ _
  | promiseTypedef _ _ empty _ _ registered =>
      obtain ⟨-, -, rfl⟩ := UnitState.register?_eq_some registered
      change Everywhere _ before.unit.pending
      rw [empty]
      exact .nil
  | placeClass => exact .nil
  | placeTypedef => exact .nil
  | placeEnum => exact .nil
  | placeLoose => exact .nil

theorem Step.preserves_home (step : Step context before after) (balanced : before.Balanced)
    (order : before.InOrder context.index) : after.home.IsDefined context.index after.placed := by
  cases step with
  | promiseClass _ idle empty scope _ _ =>
      have defined := isDefined_of_idle balanced order idle scope
      rw [Draft.fragments, empty, List.append_nil] at defined
      exact defined
  | promiseTypedef _ idle empty scope _ _ =>
      have defined := isDefined_of_idle balanced order idle scope
      rw [Draft.fragments, empty, List.append_nil] at defined
      exact defined
  | placeClass => trivial
  | placeTypedef => trivial
  | placeEnum _ _ idle => exact idle.home ▸ trivial
  | placeLoose _ idle => exact idle.home ▸ trivial
  | _ => exact order.home

theorem Step.preserves_order (step : Step context before after) (balanced : before.Balanced)
    (order : before.InOrder context.index) : after.InOrder context.index :=
  ⟨step.preserves_modules order.modules, step.preserves_placed balanced order,
    step.preserves_pending balanced order, step.preserves_home balanced order⟩

theorem Steps.preserves_order (steps : Steps context before after) (balanced : before.Balanced)
    (order : before.InOrder context.index) : after.InOrder context.index := by
  induction steps with
  | refl => exact order
  | tail earlier step ih =>
      exact step.preserves_order (Steps.preserves_balanced earlier balanced) ih

theorem Step.preserves_named (step : Step context before after)
    (named : ∀ fragment ∈ before.fragments, fragment.IsNamed) :
    ∀ fragment ∈ after.fragments, fragment.IsNamed := by
  obtain ⟨added, perm, namedAdded⟩ := step.gains
  intro fragment member
  rcases List.mem_append.mp (perm.subset member) with old | new
  · exact named fragment old
  · exact namedAdded fragment new

theorem Steps.preserves_named (steps : Steps context before after)
    (named : ∀ fragment ∈ before.fragments, fragment.IsNamed) :
    ∀ fragment ∈ after.fragments, fragment.IsNamed := by
  induction steps with
  | refl => exact named
  | tail _ step ih => exact step.preserves_named ih

end

/-! ## Units -/

theorem not_mem_allDefined_of_mem_allInner {earlier later : List Fragment} {fragment : Fragment}
    {state : UnitState} {identifier : String} (sound : state.Sound)
    (bound : (allBound (earlier ++ fragment :: later)).Perm state.byType)
    (named : ∀ other ∈ earlier, other.IsNamed) (inside : identifier ∈ allInner later) :
    identifier ∉ allDefined earlier := by
  intro defined
  obtain ⟨cppType, made⟩ := exists_mem_allBound_of_mem_allInner inside
  have distinct := (bound.map Prod.snd).nodup_iff.mpr sound.identifiers
  rw [allBound_append, allBound_cons, List.map_append, List.map_append,
    List.nodup_append] at distinct
  obtain ⟨other, found, here⟩ := List.mem_flatMap.mp defined
  rcases named other found identifier here with again | ⟨qualified, rfl⟩
  · obtain ⟨entry, boundHere, rfl⟩ := List.mem_map.mp again
    have left : entry.2 ∈ (allBound earlier).map Prod.snd :=
      List.mem_map_of_mem (List.mem_flatMap.mpr ⟨other, found, boundHere⟩)
    have right : entry.2 ∈ (allBound later).map Prod.snd := List.mem_map.mpr ⟨_, made, rfl⟩
    exact distinct.2.2 entry.2 left entry.2 (List.mem_append_right _ right) rfl
  · have member : (cppType, Name.moduleIdentifier qualified) ∈ state.byType := by
      refine bound.subset ?_
      rw [allBound_append, allBound_cons]
      exact List.mem_append_right _ (List.mem_append_right _ made)
    have starts := sound.startsWith_of_mem member
    rw [Name.startsWith_moduleIdentifier] at starts
    cases starts

/-- Every fragment is attached to what is defined before it if and only if none is attached to a
class that a later fragment has inside and that no earlier unit has bound. -/
theorem scopes_come_first_iff {depth : Nat} {options : BindOptions} {index : ProjectIndex}
    {unit : SourceUnit} {relative : String} {result : UnitResult}
    (run : generateUnit depth options index unit relative = some result) :
    (∀ earlier fragment later, result.bindings.fragments = earlier ++ fragment :: later →
        fragment.parent.IsDefined index earlier) ↔
      ∀ earlier fragment later, result.bindings.fragments = earlier ++ fragment :: later →
        ∀ identifier ∈ allInner later, fragment.parent = .class_ identifier →
          ∃ cppType, index.knownClass? cppType = some identifier := by
  obtain ⟨progress, visitRun, -⟩ := generateUnit_eq_some run
  obtain ⟨sound, bound⟩ := balanced_of_visitUnit visitRun
  obtain ⟨steps, nothing⟩ := UnitContext.visitUnit_steps visitRun
  have named := Steps.preserves_named steps nofun
  have order := Steps.preserves_order steps balanced_start (inOrder_start index)
  constructor
  · intro defined earlier fragment later parts identifier inside attached
    have here := defined earlier fragment later parts
    rw [attached] at here
    rcases here with made | earlierUnit
    · rw [parts] at bound
      refine absurd made (not_mem_allDefined_of_mem_allInner sound bound ?_ inside)
      intro other member
      refine named other (List.mem_append_left _ ?_)
      change other ∈ result.bindings.fragments
      simp [parts, member]
    · exact earlierUnit
  · intro known earlier fragment later parts
    rcases order.placed earlier fragment later parts with defined | ⟨identifier, inside, attached⟩
    · exact defined
    · rw [List.append_nil] at inside
      rw [attached]
      exact .inr (known earlier fragment later parts identifier inside attached)

theorem geometry_scopes_come_first :
    ∃ result, generateUnit 2 .plain .empty geometryUnit "unit.hpp" = some result ∧
      ∀ earlier fragment later, result.bindings.fragments = earlier ++ fragment :: later →
        fragment.parent.IsDefined .empty earlier := by
  have apart : (generateUnit 2 .plain .empty geometryUnit "unit.hpp").map (fun result =>
      decide (∀ fragment ∈ result.bindings.fragments,
        ∀ identifier ∈ allInner result.bindings.fragments,
          fragment.parent ≠ .class_ identifier)) = some true := by
    decide +kernel
  obtain ⟨result, run, decided⟩ := Option.map_eq_some_iff.mp apart
  refine ⟨result, run, (scopes_come_first_iff run).mpr ?_⟩
  intro earlier fragment later parts identifier inside attached
  refine absurd attached (of_decide_eq_true decided fragment (by simp [parts]) identifier ?_)
  rw [parts, allInner, List.flatMap_append, List.flatMap_cons]
  exact List.mem_append_right _ (List.mem_append_right _ inside)

/-- A class that declares a nested class without defining it, and a method whose parameter is an
instantiation of a template inside the nested class as another file defines it. -/
def opaqueScopeUnit : SourceUnit :=
  .ofSteps
    [.inFile "/src/base.hpp",
     .inlineNamespace 0 "v1",
     .add 1 .classDecl "A",
     .add 2 .classDecl "B",
     .classTemplate 3 "T" ["X"],
     .inUnit,
     .specialization 4 "int",
     .named 6,
     .builtin "void",
     .add 0 .classDecl "A",
     .forwardClass 7 "B",
     .function .method 7 "take" 2,
     .param 9 "value" 1]

/-- The instantiation is attached to the opaque class and stands before the class around it. -/
theorem opaque_scope_comes_late :
    ∃ result, generateUnit 1 .plain .empty opaqueScopeUnit "unit.hpp" = some result ∧
      ∃ fragment later, result.bindings.fragments = [] ++ fragment :: later ∧
        fragment.parent = .class_ "rb_cAB" ∧ ¬ fragment.parent.IsDefined .empty [] := by
  have parents : (generateUnit 1 .plain .empty opaqueScopeUnit "unit.hpp").map
      (fun result => result.bindings.fragments.map (·.parent)) =
        some [.class_ "rb_cAB", .global] := by
    decide +kernel
  obtain ⟨result, run, found⟩ := Option.map_eq_some_iff.mp parents
  obtain ⟨fragment, later, parts, attached, -⟩ := List.map_eq_cons_iff.mp found
  refine ⟨result, run, fragment, later, parts, attached, ?_⟩
  rw [attached]
  rintro (defined | ⟨cppType, earlier⟩)
  · cases defined
  · cases earlier

end Bindery
