import Bindery.Proofs.Binding.Traversal
import Mathlib.Data.List.Nodup

/-!
# The ledger of bindings

Each binding that is made is promised until the fragment that defines it has been made.  So at the
end of a unit its fragments bind exactly the types that were registered, each type and each
identifier once, and the index learns of nothing else.
-/

set_option autoImplicit false

namespace Bindery

/-! ## Identifiers of classes and modules -/

namespace Name

theorem startsWith_classIdentifier (qualified : String) :
    Text.startsWith "rb_c" (classIdentifier qualified) = true := by
  simp [Text.startsWith, classIdentifier]

theorem startsWith_moduleIdentifier (qualified : String) :
    Text.startsWith "rb_c" (moduleIdentifier qualified) = false := by
  simp [Text.startsWith, moduleIdentifier, List.isPrefixOf]

end Name

/-! ## Entries under keys -/

theorem nodup_map_iff_of_mem {α β γ : Type} {entries : List α} {key : α → β} {other : α → γ}
    (alike : ∀ first ∈ entries, ∀ second ∈ entries,
      (key first = key second ↔ other first = other second)) :
    (entries.map key).Nodup ↔ (entries.map other).Nodup := by
  rw [List.Nodup, List.Nodup, List.pairwise_map, List.pairwise_map]
  exact List.Pairwise.iff_of_mem fun isFirst isSecond =>
    not_congr (alike _ isFirst _ isSecond)

theorem nodup_map_concat {α β : Type} {key : α → β} {entries : List α} {entry : α}
    (distinct : (entries.map key).Nodup) (new : key entry ∉ entries.map key) :
    ((entries ++ [entry]).map key).Nodup := by
  rw [List.map_append, List.map_singleton, ← List.concat_eq_append]
  exact .concat new distinct

section Entries

variable {α : Type}

theorem not_mem_keys_of_lookup_eq_none {key : String} {entries : List (String × α)}
    (absent : entries.lookup key = none) : key ∉ entries.map Prod.fst := by
  intro member
  obtain ⟨entry, found, rfl⟩ := List.mem_map.mp member
  have other := List.lookup_eq_none_iff.mp absent entry found
  simp at other

theorem lookup_eq_some_iff_mem {key : String} {value : α} {entries : List (String × α)}
    (distinct : (entries.map Prod.fst).Nodup) :
    entries.lookup key = some value ↔ (key, value) ∈ entries := by
  induction entries with
  | nil => simp
  | cons entry rest ih =>
      obtain ⟨first, bound⟩ := entry
      rw [List.map_cons, List.nodup_cons] at distinct
      rw [List.lookup_cons, List.mem_cons]
      by_cases same : key = first
      · subst same
        have absent : (key, value) ∉ rest := fun member =>
          distinct.1 (List.mem_map.mpr ⟨_, member, rfl⟩)
        simp [absent, eq_comm]
      · have differs : (key == first) = false := beq_eq_false_iff_ne.mpr same
        simp [differs, same, ih distinct.2]

/-- Entries whose keys do not pass a test come and go unnoticed. -/
theorem filter_assign {key : String} {value : α} {accepted : String → Bool}
    (rejected : accepted key = false) (entries : List (String × α)) :
    (assign key value entries).filter (fun entry => accepted entry.1) =
      entries.filter fun entry => accepted entry.1 := by
  unfold assign
  split
  case isTrue present =>
    clear present
    induction entries with
    | nil => rfl
    | cons entry rest ih =>
        rw [List.map_cons, List.filter_cons, List.filter_cons, ih]
        by_cases same : entry.1 = key
        · rw [if_pos same, same, rejected]
          rfl
        · rw [if_neg same]
  case isFalse => simp [rejected]

end Entries

/-! ## Sound states -/

namespace UnitState

/-- The bindings of classes are those of the types, and no type and no identifier has two. -/
structure Sound (state : UnitState) : Prop where
  classes : state.classes = state.byType
  types : (state.byType.map Prod.fst).Nodup
  identifiers : (state.byType.map Prod.snd).Nodup

theorem sound_empty : UnitState.empty.Sound :=
  ⟨rfl, List.nodup_nil, List.nodup_nil⟩

theorem classes_openModule (state : UnitState) (namespaceName qualified : String) :
    (state.openModule namespaceName (Name.moduleIdentifier qualified)).classes =
      state.classes := by
  unfold classes openModule
  rw [filter_assign (Name.startsWith_moduleIdentifier qualified)]

theorem classes_register {before after : UnitState} {qualified cppType : String}
    (registered : before.register? (Name.classIdentifier qualified) cppType = some after) :
    after.classes = before.classes ++ [(cppType, Name.classIdentifier qualified)] := by
  obtain ⟨-, -, rfl⟩ := register?_eq_some registered
  simp [classes, Name.startsWith_classIdentifier]

namespace Sound

variable {before after : UnitState}

theorem congr (sound : before.Sound) (bindings : after.bindings = before.bindings)
    (byType : after.byType = before.byType) : after.Sound := by
  have classes : after.classes = before.classes := by
    unfold UnitState.classes
    rw [bindings]
  exact ⟨by rw [classes, byType, sound.classes], byType ▸ sound.types,
    byType ▸ sound.identifiers⟩

theorem openModule (sound : before.Sound) (namespaceName qualified : String) :
    (before.openModule namespaceName (Name.moduleIdentifier qualified)).Sound :=
  ⟨(classes_openModule _ _ _).trans sound.classes, sound.types, sound.identifiers⟩

theorem identifier_notMem (sound : before.Sound) {identifier : String}
    (free : before.bindings.lookup identifier = none) :
    identifier ∉ before.byType.map Prod.snd := by
  rw [← sound.classes]
  intro member
  obtain ⟨entry, found, rfl⟩ := List.mem_map.mp member
  obtain ⟨owner, owned, rfl⟩ := List.mem_map.mp found
  exact not_mem_keys_of_lookup_eq_none free
    (List.mem_map_of_mem (List.mem_of_mem_filter owned))

theorem register (sound : before.Sound) {qualified cppType : String}
    (registered : before.register? (Name.classIdentifier qualified) cppType = some after) :
    after.Sound := by
  have classes := classes_register registered
  obtain ⟨unknown, free, rfl⟩ := register?_eq_some registered
  have newType := not_mem_keys_of_lookup_eq_none unknown
  have newIdentifier := sound.identifier_notMem free
  refine ⟨?_, nodup_map_concat sound.types newType,
    nodup_map_concat sound.identifiers newIdentifier⟩
  rw [classes, sound.classes]

theorem startsWith_of_mem (sound : before.Sound) {entry : String × String}
    (member : entry ∈ before.byType) : Text.startsWith "rb_c" entry.2 = true := by
  rw [← sound.classes] at member
  obtain ⟨owner, owned, rfl⟩ := List.mem_map.mp member
  exact (List.mem_filter.mp owned).2

end Sound

end UnitState

/-! ## Balanced drafts -/

namespace Fragment

theorem allBound_append (left right : List Fragment) :
    allBound (left ++ right) = allBound left ++ allBound right :=
  List.flatMap_append

theorem allBound_cons (fragment : Fragment) (rest : List Fragment) :
    allBound (fragment :: rest) = fragment.boundTypes ++ allBound rest :=
  List.flatMap_cons

theorem boundTypes_of_isLoose {fragment : Fragment} (loose : fragment.IsLoose) :
    fragment.boundTypes = [] := by
  cases fragment <;> first | rfl | cases loose

theorem allBound_of_isLoose {fragments : List Fragment}
    (loose : ∀ fragment ∈ fragments, fragment.IsLoose) : allBound fragments = [] :=
  List.flatMap_eq_nil_iff.mpr fun fragment member => boundTypes_of_isLoose (loose fragment member)

end Fragment

open Draft Fragment

/-- Every binding of a draft has its fragment or is promised, and only one of the two. -/
structure Draft.Balanced (draft : Draft) : Prop where
  sound : draft.unit.Sound
  ledger : draft.unit.byType.Perm (allBound draft.fragments ++ draft.promised)

theorem balanced_start : Draft.start.Balanced :=
  ⟨UnitState.sound_empty, .nil⟩

section

variable {context : UnitContext} {before after : Draft}

theorem Step.preserves_sound (step : Step context before after) (sound : before.unit.Sound) :
    after.unit.Sound := by
  cases step with
  | note quiet => exact sound.congr quiet.bindings quiet.byType
  | openModule id _ _ _ =>
      exact (sound.openModule _ (context.tree.qualifiedName id)).congr rfl rfl
  | begin => exact sound.congr rfl rfl
  | finish _ _ _ _ registered => exact (sound.register registered).congr rfl rfl
  | refuse => exact sound
  | promiseClass _ _ _ _ _ registered => exact sound.register registered
  | settle => exact sound
  | promiseOpaque _ _ _ registered => exact sound.register registered
  | placeClass => exact sound.congr rfl rfl
  | promiseTypedef _ _ _ _ _ registered => exact sound.register registered
  | placeTypedef => exact sound.congr rfl rfl
  | placeEnum _ _ _ registered => exact (sound.register registered).congr rfl rfl
  | placeLoose => exact sound.congr rfl rfl

theorem Step.preserves_ledger (step : Step context before after)
    (ledger : before.unit.byType.Perm (allBound before.fragments ++ before.promised)) :
    after.unit.byType.Perm (allBound after.fragments ++ after.promised) := by
  cases step with
  | @note progress quiet =>
      have fragments : (before.advance progress).fragments = before.fragments :=
        congrArg (before.placed ++ ·) quiet.pending
      rw [fragments]
      exact (List.Perm.of_eq quiet.byType).trans ledger
  | openModule id name new scope =>
      change List.Perm _ (allBound (before.placed ++ (before.unit.pending ++ [_])) ++ _)
      rw [← List.append_assoc, allBound_append]
      exact ledger.trans (.of_eq (congrArg (· ++ before.promised) (List.append_nil _).symm))
  | begin => exact ledger
  | finish _ _ _ _ registered =>
      obtain ⟨-, -, rfl⟩ := UnitState.register?_eq_some registered
      refine (ledger.append_right _).trans ?_
      change List.Perm _ (allBound (before.placed ++ (before.unit.pending ++ [_])) ++ _)
      rw [← List.append_assoc, allBound_append, List.append_assoc, List.append_assoc]
      exact List.perm_append_comm.append_left _
  | refuse => exact ledger
  | promiseClass _ idle _ _ _ registered =>
      obtain ⟨-, -, rfl⟩ := UnitState.register?_eq_some registered
      rw [idle.promised, List.append_nil] at ledger
      exact ledger.append_right _
  | settle => exact ledger
  | promiseOpaque _ _ _ registered =>
      obtain ⟨-, -, rfl⟩ := UnitState.register?_eq_some registered
      refine (ledger.append_right _).trans ?_
      rw [List.append_assoc]
      exact .refl _
  | placeClass binding _ fulfilled =>
      refine ledger.trans ?_
      change List.Perm _ (allBound (before.placed ++ _ ++ .class_ binding :: _ ++ []) ++ [])
      have parts := congrArg allBound (List.takeWhile_append_dropWhile
        (p := goesBefore binding.identifier) (l := before.unit.pending))
      rw [allBound_append] at parts
      rw [List.append_nil, List.append_nil, Draft.fragments, ← fulfilled]
      simp only [allBound_append, allBound_cons, ← parts]
      -- The class takes its place among those that waited, so every entry is only counted.
      rw [List.perm_iff_count]
      intro entry
      simp only [List.count_append]
      omega
  | promiseTypedef _ idle _ _ _ registered =>
      obtain ⟨-, -, rfl⟩ := UnitState.register?_eq_some registered
      rw [idle.promised, List.append_nil] at ledger
      exact ledger.append_right _
  | placeTypedef _ _ _ _ promised =>
      rw [promised] at ledger
      refine ledger.trans ?_
      change List.Perm _ (allBound (before.placed ++ before.unit.pending ++ [_] ++ []) ++ [])
      rw [List.append_nil, List.append_nil, allBound_append]
      exact .refl _
  | placeEnum _ _ idle registered =>
      obtain ⟨-, -, rfl⟩ := UnitState.register?_eq_some registered
      rw [idle.promised, List.append_nil] at ledger
      rw [fragments_place, allBound_append]
      change List.Perm _ (_ ++ _ ++ before.promised)
      rw [idle.promised, List.append_nil]
      exact ledger.append_right _
  | placeLoose fragments idle loose =>
      have nothing := allBound_of_isLoose fun fragment member => (loose fragment member).1
      rw [fragments_place, allBound_append, nothing, List.append_nil]
      exact ledger

theorem Step.preserves_balanced (step : Step context before after) (balanced : before.Balanced) :
    after.Balanced :=
  ⟨step.preserves_sound balanced.sound, step.preserves_ledger balanced.ledger⟩

theorem Steps.preserves_balanced (steps : Steps context before after)
    (balanced : before.Balanced) : after.Balanced := by
  induction steps with
  | refl => exact balanced
  | tail _ step ih => exact step.preserves_balanced ih

/-- At the end of a unit no binding is promised any more. -/
theorem balanced_of_visitUnit {fragments : List Fragment} {progress : Progress}
    (run : context.visitUnit.run ⟨UnitState.empty, []⟩ = some (fragments, progress)) :
    progress.unit.Sound ∧ (allBound fragments).Perm progress.unit.byType := by
  obtain ⟨steps, nothing⟩ := UnitContext.visitUnit_steps run
  obtain ⟨sound, ledger⟩ := Steps.preserves_balanced steps balanced_start
  refine ⟨sound, ?_⟩
  change progress.unit.byType.Perm (allBound (fragments ++ progress.unit.pending) ++ []) at ledger
  rw [nothing, List.append_nil, List.append_nil] at ledger
  exact ledger.symm

end

/-! ## The index -/

namespace ProjectIndex

theorem knownClass?_recordClass (index : ProjectIndex) (cppType identifier other : String) :
    (index.recordClass cppType identifier).knownClass? other =
      (index.knownClass? other).or ([(cppType, identifier)].lookup other) := by
  unfold recordClass
  split
  case isTrue known =>
    by_cases same : other = cppType
    · subst same
      rw [Option.or_of_isSome known]
    · simp [List.lookup_cons, beq_eq_false_iff_ne.mpr same]
  case isFalse => exact List.lookup_append

theorem knownClass?_recordClasses (entries : List (String × String)) (index : ProjectIndex)
    (cppType : String) :
    (entries.foldl (fun index entry => index.recordClass entry.1 entry.2) index).knownClass?
        cppType = (index.knownClass? cppType).or (entries.lookup cppType) := by
  induction entries generalizing index with
  | nil => simp
  | cons entry rest ih =>
      rw [List.foldl_cons, ih, knownClass?_recordClass, Option.or_assoc,
        ← List.lookup_append, List.singleton_append]

theorem knownClass?_recordBuilder (index : ProjectIndex) (template : String)
    (location : BuilderLocation) (cppType : String) :
    (index.recordBuilder template location).knownClass? cppType = index.knownClass? cppType := by
  unfold recordBuilder
  split <;> rfl

theorem knownClass?_recordUnit (index : ProjectIndex) (state : UnitState) (ippPath : String)
    (cppType : String) :
    (index.recordUnit state ippPath).knownClass? cppType =
      (index.knownClass? cppType).or (state.classes.lookup cppType) := by
  unfold recordUnit
  dsimp only
  rw [← knownClass?_recordClasses]
  generalize state.classes.foldl _ index = recorded
  induction state.localBuilders generalizing recorded with
  | nil => rfl
  | cons entry rest ih =>
      rw [List.foldl_cons, ih, knownClass?_recordBuilder]

end ProjectIndex

/-! ## Units -/

/-- The fragments of a unit bind exactly the types that were registered, each type and each
identifier once.  Nothing waits at the end, and the index learns of what the fragments bind. -/
theorem every_binding_is_placed_once {depth : Nat} {options : BindOptions} {index : ProjectIndex}
    {unit : SourceUnit} {relative : String} {result : UnitResult}
    (run : generateUnit depth options index unit relative = some result) :
    ((allBound result.bindings.fragments).map Prod.fst).Nodup ∧
      ((allBound result.bindings.fragments).map Prod.snd).Nodup ∧
      (∃ progress,
        (UnitContext.ofUnit depth unit options index relative).visitUnit.run
          ⟨UnitState.empty, []⟩ = some (result.bindings.fragments, progress) ∧
        (allBound result.bindings.fragments).Perm progress.unit.classes ∧
        (allBound result.bindings.fragments).Perm progress.unit.byType ∧
        progress.unit.pending = []) ∧
      ∀ cppType identifier, result.index.knownClass? cppType = some identifier ↔
        index.knownClass? cppType = some identifier ∨
          index.knownClass? cppType = none ∧
            (cppType, identifier) ∈ allBound result.bindings.fragments := by
  obtain ⟨progress, visitRun, indexed, -⟩ := generateUnit_eq_some run
  obtain ⟨sound, bound⟩ := balanced_of_visitUnit visitRun
  have nothing := (UnitContext.visitUnit_steps visitRun).2
  refine ⟨(bound.map Prod.fst).nodup_iff.mpr sound.types,
    (bound.map Prod.snd).nodup_iff.mpr sound.identifiers,
    ⟨progress, visitRun, sound.classes ▸ bound, bound, nothing⟩, ?_⟩
  intro cppType identifier
  rw [indexed, ProjectIndex.knownClass?_recordUnit, Option.or_eq_some_iff, bound.mem_iff,
    sound.classes, lookup_eq_some_iff_mem sound.types]

/-- A namespace with a class, an opaque class and an enum in it, two instantiations that no typedef
names and one that has a typedef. -/
def geometryUnit : SourceUnit :=
  .ofSteps
    [.add 0 .namespaceDecl "geo",
     .classTemplate 1 "Base" ["T"],
     .classTemplate 1 "Derived" ["T"],
     .templateBase 4 2 "T",
     .specialization 4 "int",
     .named 8,
     .add 1 .classDecl "Shape",
     .forwardClass 9 "Impl",
     .enumeration 9 "Kind",
     .builtin "void",
     .specialization 2 "float",
     .named 12,
     .function .method 9 "take" 3,
     .param 13 "value" 5,
     .newTypedef .typedefDecl 1 "DerivedInt" 2]

/-- What the fragments of that unit bind, in their order. -/
def geometryTypes : List (String × String) :=
  [("geo::Base<float>", "rb_cGeoBaseFloat"), ("geo::Shape", "rb_cGeoShape"),
   ("geo::Shape::Impl", "rb_cGeoShapeImpl"), ("geo::Shape::Kind", "rb_cGeoShapeKind"),
   ("geo::Base<int>", "rb_cGeoBaseInt"), ("geo::Derived<int>", "rb_cGeoDerivedInt")]

set_option maxRecDepth 100000 in
theorem geometry_bindings_are_placed_once :
    ∃ result, generateUnit 2 .plain .empty geometryUnit "unit.hpp" = some result ∧
      allBound result.bindings.fragments = geometryTypes ∧
      ((allBound result.bindings.fragments).map Prod.snd).Nodup ∧
      result.index.knownClass? "geo::Shape::Impl" = some "rb_cGeoShapeImpl" := by
  have bound : (generateUnit 2 .plain .empty geometryUnit "unit.hpp").map
      (fun result => allBound result.bindings.fragments) = some geometryTypes := by
    decide +kernel
  obtain ⟨result, run, fragments⟩ := Option.map_eq_some_iff.mp bound
  obtain ⟨-, identifiers, -, learns⟩ := every_binding_is_placed_once run
  refine ⟨result, run, fragments, identifiers, (learns _ _).mpr (.inr ⟨rfl, ?_⟩)⟩
  rw [fragments]
  decide

end Bindery
