import Bindery.Proofs.Binding.Ledger

/-!
# The two maps of bindings

A state has each bound class twice: its type by identifier, and its identifier by type.  Modules
have no type; they are put among the identifiers directly, over what may be there.  However such
insertions and registrations follow each other, the two maps stay inverse for the identifiers of
classes, and what has been registered first stays.
-/

set_option autoImplicit false

namespace Bindery

section Entries

variable {α : Type}

theorem keys_assign (key : String) (value : α) (entries : List (String × α)) :
    (assign key value entries).map Prod.fst =
      if (entries.lookup key).isSome then entries.map Prod.fst
      else entries.map Prod.fst ++ [key] := by
  unfold assign
  split
  · rw [List.map_map]
    apply List.map_congr_left
    intro entry _
    by_cases same : entry.1 = key
    · simp [same]
    · simp [same]
  · simp

end Entries

/-- What may happen to the maps: a type is to be bound to an identifier, or the identifier of a
module, told without its prefix, is put in. -/
inductive MapCall where
  | register (identifier cppType : String)
  | insertModule (rest qualified : String)
deriving Repr, DecidableEq

namespace MapCall

/-- Carries out a call; tells whether a type was bound. -/
def run : MapCall → Gen Bool
  | register identifier cppType => Gen.register identifier cppType
  | insertModule rest qualified => do
      Gen.change (·.openModule qualified ("rb_m" ++ rest))
      return false

/-- The identifier and the type that an answered call has bound. -/
def bound? : MapCall × Bool → Option (String × String)
  | (register identifier cppType, true) => some (identifier, cppType)
  | (register _ _, false) => none
  | (insertModule _ _, _) => none

/-- What a list of answered calls has bound, in their order. -/
def allBound (calls : List MapCall) (answers : List Bool) : List (String × String) :=
  (calls.zip answers).filterMap bound?

end MapCall

namespace UnitState

/-- Whether an entry stands under the identifier of a class. -/
def isClassEntry (entry : String × String) : Bool :=
  Text.startsWith "rb_c" entry.1

/-- What the maps of a state have to do with the successful registrations, told by their
identifiers and types in order.  The identifiers stay taken, even where a module has been put over
one of them. -/
structure Records (state : UnitState) (bound : List (String × String)) : Prop where
  byType : state.byType = bound.map Prod.swap
  classes : state.bindings.filter isClassEntry = bound.filter isClassEntry
  taken : ∀ entry ∈ bound, entry.1 ∈ state.bindings.map Prod.fst
  keys : (state.bindings.map Prod.fst).Nodup
  identifiers : (bound.map Prod.fst).Nodup
  types : (bound.map Prod.snd).Nodup

namespace Records

theorem empty : UnitState.empty.Records [] :=
  ⟨rfl, rfl, List.forall_mem_nil _, List.nodup_nil, List.nodup_nil, List.nodup_nil⟩

variable {state : UnitState} {bound : List (String × String)}

/-! ## What one call preserves -/

theorem insertModule (records : state.Records bound) (qualified rest : String) :
    (state.openModule qualified ("rb_m" ++ rest)).Records bound := by
  have noClass : Text.startsWith "rb_c" ("rb_m" ++ rest) = false := by
    simp [Text.startsWith, List.isPrefixOf]
  have keys := keys_assign ("rb_m" ++ rest) qualified state.bindings
  refine ⟨records.byType, ?_, ?_, ?_, records.identifiers, records.types⟩
  · exact (filter_assign noClass state.bindings).trans records.classes
  · intro entry member
    rw [openModule, keys]
    split
    · exact records.taken entry member
    · exact List.mem_append_left _ (records.taken entry member)
  · rw [openModule, keys]
    split
    · exact records.keys
    · rename_i absent
      rw [← List.concat_eq_append]
      exact .concat (not_mem_keys_of_lookup_eq_none (Option.not_isSome_iff_eq_none.mp absent)) records.keys

theorem register (records : state.Records bound) {identifier cppType : String}
    {after : UnitState} (registered : state.register? identifier cppType = some after) :
    after.Records (bound ++ [(identifier, cppType)]) := by
  obtain ⟨newType, newIdentifier, rfl⟩ := register?_eq_some registered
  have freeKey := not_mem_keys_of_lookup_eq_none newIdentifier
  have freeIdentifier : identifier ∉ bound.map Prod.fst := by
    intro member
    obtain ⟨entry, given, rfl⟩ := List.mem_map.mp member
    exact freeKey (records.taken entry given)
  have freeType : cppType ∉ bound.map Prod.snd := by
    have absent := not_mem_keys_of_lookup_eq_none newType
    rwa [records.byType, List.map_map] at absent
  refine ⟨?_, ?_, ?_, nodup_map_concat records.keys freeKey,
    nodup_map_concat records.identifiers freeIdentifier, nodup_map_concat records.types freeType⟩
  · simp [records.byType]
  · simp [records.classes]
  · intro entry member
    rw [List.map_append]
    rcases List.mem_append.mp member with earlier | last
    · exact List.mem_append_left _ (records.taken entry earlier)
    · obtain rfl := List.mem_singleton.mp last
      exact List.mem_append_right _ (List.mem_singleton_self _)

/-! ## What the maps hold -/

theorem lookup_byType_iff (records : state.Records bound) {identifier cppType : String} :
    state.byType.lookup cppType = some identifier ↔ (identifier, cppType) ∈ bound := by
  have keys : (state.byType.map Prod.fst).Nodup := by
    rw [records.byType, List.map_map]
    exact records.types
  rw [lookup_eq_some_iff_mem keys, records.byType]
  simp

theorem lookup_bindings_iff (records : state.Records bound) {identifier cppType : String}
    (isClass : Text.startsWith "rb_c" identifier = true) :
    state.bindings.lookup identifier = some cppType ↔ (identifier, cppType) ∈ bound := by
  have among (entries : List (String × String)) :
      (identifier, cppType) ∈ entries ↔ (identifier, cppType) ∈ entries.filter isClassEntry := by
    rw [List.mem_filter]
    exact (and_iff_left isClass).symm
  rw [lookup_eq_some_iff_mem records.keys, among, records.classes, ← among]

theorem inverse (records : state.Records bound) {identifier cppType : String}
    (isClass : Text.startsWith "rb_c" identifier = true) :
    state.bindings.lookup identifier = some cppType ↔
      state.byType.lookup cppType = some identifier := by
  rw [records.lookup_bindings_iff isClass, records.lookup_byType_iff]

/-- No identifier belongs to two types. -/
theorem type_unique (records : state.Records bound) {first second identifier : String}
    (left : state.byType.lookup first = some identifier)
    (right : state.byType.lookup second = some identifier) : first = second := by
  have isFirst := records.lookup_byType_iff.mp left
  have isSecond := records.lookup_byType_iff.mp right
  exact congrArg Prod.snd (List.inj_on_of_nodup_map records.identifiers isFirst isSecond rfl)

end Records

end UnitState

namespace MapCall

theorem allBound_cons (call : MapCall) (later : List MapCall) (answer : Bool)
    (answers : List Bool) :
    allBound (call :: later) (answer :: answers) =
      (bound? (call, answer)).toList ++ allBound later answers := by
  rw [allBound, List.zip_cons_cons, List.filterMap_cons]
  cases bound? (call, answer) <;> rfl

/-- One call, from any state that records what the calls before it have bound. -/
theorem run_records (call : MapCall) {before : Progress} {bound : List (String × String)}
    (records : before.unit.Records bound) :
    ∃ answer after, call.run.run before = some (answer, after) ∧
      after.unit.Records (bound ++ (bound? (call, answer)).toList) := by
  cases call with
  | insertModule rest qualified =>
      refine ⟨false, before.withUnit (before.unit.openModule qualified ("rb_m" ++ rest)), rfl, ?_⟩
      rw [bound?, Option.toList_none, List.append_nil]
      exact records.insertModule qualified rest
  | register identifier cppType =>
      rw [run, Gen.run_register]
      cases registered : before.unit.register? identifier cppType with
      | some after =>
          exact ⟨true, before.withUnit after, rfl, records.register registered⟩
      | none =>
          refine ⟨false, before.report (Gen.collisionEvents before.unit identifier cppType), rfl, ?_⟩
          rw [bound?, Option.toList_none, List.append_nil]
          exact records

theorem run_calls_records (calls : List MapCall) {before : Progress}
    {bound : List (String × String)} (records : before.unit.Records bound) :
    ∃ answers after, (calls.mapM run).run before = some (answers, after) ∧
      after.unit.Records (bound ++ allBound calls answers) := by
  induction calls generalizing before bound with
  | nil =>
      rw [← List.append_nil bound] at records
      exact ⟨[], before, rfl, records⟩
  | cons call later ih =>
      obtain ⟨answer, between, callRun, kept⟩ := call.run_records records
      obtain ⟨answers, after, laterRun, last⟩ := ih kept
      refine ⟨answer :: answers, after, ?_, ?_⟩
      · rw [List.mapM_cons, Gen.run_bind_of_eq_some callRun, Gen.run_bind_of_eq_some laterRun]
        rfl
      · rw [allBound_cons, ← List.append_assoc]
        exact last

/-! ## What every sequence of calls leads to -/

/-- A call binds a type exactly if neither the type nor the identifier is taken; otherwise it
leaves the state as it is. -/
theorem run_register_iff (identifier cppType : String) (progress : Progress) :
    ∃ answer after, (register identifier cppType).run.run progress = some (answer, after) ∧
      (answer = true ↔ progress.unit.byType.lookup cppType = none ∧
        progress.unit.bindings.lookup identifier = none) ∧
      (answer = false → after.unit = progress.unit) := by
  rw [run, Gen.run_register]
  cases registered : progress.unit.register? identifier cppType with
  | some unit =>
      obtain ⟨newType, newIdentifier, -⟩ := UnitState.register?_eq_some registered
      exact ⟨true, progress.withUnit unit, rfl, iff_of_true rfl ⟨newType, newIdentifier⟩, nofun⟩
  | none =>
      refine ⟨false, progress.report (Gen.collisionEvents progress.unit identifier cppType), rfl,
        ?_, fun _ => rfl⟩
      refine iff_of_false Bool.false_ne_true fun ⟨newType, newIdentifier⟩ => ?_
      simp [UnitState.register?, UnitState.identifierFor?, newType, newIdentifier] at registered

end MapCall

/-- The maps stay inverse to each other.  Types are registered and modules put in, in any order and
from the state in which nothing is bound.  Then for the identifiers of classes each map is the
inverse of the other, so neither has a value twice; the next registration succeeds exactly if
neither its type nor its identifier is taken, and otherwise changes nothing; the classes stand in
the order in which they were registered; and whatever calls follow, what is registered stays. -/
theorem binding_maps_stay_inverse (calls : List MapCall) (events : List Event) :
    ∃ answers progress,
      (calls.mapM MapCall.run).run ⟨UnitState.empty, events⟩ = some (answers, progress) ∧
      (∀ identifier cppType, Text.startsWith "rb_c" identifier = true →
        (progress.unit.bindings.lookup identifier = some cppType ↔
          progress.unit.byType.lookup cppType = some identifier)) ∧
      (∀ first second identifier, progress.unit.byType.lookup first = some identifier →
        progress.unit.byType.lookup second = some identifier → first = second) ∧
      (∀ first second cppType, Text.startsWith "rb_c" first = true →
        Text.startsWith "rb_c" second = true →
        progress.unit.bindings.lookup first = some cppType →
        progress.unit.bindings.lookup second = some cppType → first = second) ∧
      (∀ identifier cppType, ∃ answer after,
        (Gen.register identifier cppType).run progress = some (answer, after) ∧
        (answer = true ↔ progress.unit.byType.lookup cppType = none ∧
          progress.unit.bindings.lookup identifier = none) ∧
        (answer = false → after.unit = progress.unit)) ∧
      progress.unit.bindings.filter UnitState.isClassEntry =
        (MapCall.allBound calls answers).filter UnitState.isClassEntry ∧
      (∀ more : List MapCall, ∃ later after, (more.mapM MapCall.run).run progress = some (later, after) ∧
        (∀ identifier cppType, progress.unit.byType.lookup cppType = some identifier →
          after.unit.byType.lookup cppType = some identifier) ∧
        (∀ identifier cppType, Text.startsWith "rb_c" identifier = true →
          progress.unit.bindings.lookup identifier = some cppType →
          after.unit.bindings.lookup identifier = some cppType)) := by
  obtain ⟨answers, progress, run, records⟩ :=
    @MapCall.run_calls_records calls ⟨UnitState.empty, events⟩ [] UnitState.Records.empty
  rw [List.nil_append] at records
  refine ⟨answers, progress, run, fun _ _ => records.inverse, fun _ _ _ => records.type_unique,
    ?_, fun identifier cppType => MapCall.run_register_iff identifier cppType progress,
    records.classes, ?_⟩
  · intro first second cppType isFirst isSecond left right
    have firstIs := (records.inverse isFirst).mp left
    have secondIs := (records.inverse isSecond).mp right
    exact Option.some.inj (firstIs.symm.trans secondIs)
  · intro more
    obtain ⟨later, after, laterRun, last⟩ := MapCall.run_calls_records more records
    refine ⟨later, after, laterRun, fun identifier cppType known => ?_,
      fun identifier cppType isClass known => ?_⟩
    · rw [records.lookup_byType_iff] at known
      exact last.lookup_byType_iff.mpr (List.mem_append_left _ known)
    · rw [records.lookup_bindings_iff isClass] at known
      exact (last.lookup_bindings_iff isClass).mpr (List.mem_append_left _ known)

end Bindery
