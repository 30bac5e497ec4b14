import Bindery.Proofs.Binding.Position
import Bindery.Proofs.Binding.Provenance
import Bindery.Proofs.Binding.Ledger
import Bindery.Run.Generate

/-!
# Sequences of units

The units of a run are generated one after the other, each with the index that those before it have
left.  What a unit finds in the index is what the earlier units bind: of several bindings of a type
the first.
-/

set_option autoImplicit false

namespace Bindery

open Fragment

/-- A unit of a run: what is fixed for it, and what it gives. -/
structure Turn where
  context : UnitContext
  result : UnitResult

namespace Turn

def fragments (turn : Turn) : List Fragment :=
  turn.result.bindings.fragments

/-- The C++ types that a unit binds, each with its identifier. -/
def types (turn : Turn) : List (String × String) :=
  allBound turn.fragments

end Turn

/-- The C++ types that units bind, each with its identifier, in the order of the units. -/
def typesOf (turns : List Turn) : List (String × String) :=
  turns.flatMap Turn.types

/-- Generates units, each a tree with the path of its header, one after the other. -/
def generateUnits (depth : Nat) (options : BindOptions) :
    ProjectIndex → List (SourceUnit × String) → Option (List Turn)
  | _, [] => some []
  | index, (unit, relative) :: later => do
      let result ← generateUnit depth options index unit relative
      let turns ← generateUnits depth options result.index later
      some (⟨.ofUnit depth unit options index relative, result⟩ :: turns)

theorem generateUnits_cons {depth : Nat} {options : BindOptions} {index : ProjectIndex}
    {unit : SourceUnit} {relative : String} {later : List (SourceUnit × String)}
    {turns : List Turn}
    (run : generateUnits depth options index ((unit, relative) :: later) = some turns) :
    ∃ result rest, generateUnit depth options index unit relative = some result ∧
      generateUnits depth options result.index later = some rest ∧
      turns = ⟨.ofUnit depth unit options index relative, result⟩ :: rest := by
  obtain ⟨result, unitRun, run⟩ := Option.bind_eq_some_iff.mp run
  obtain ⟨rest, laterRun, run⟩ := Option.bind_eq_some_iff.mp run
  exact ⟨result, rest, unitRun, laterRun, (Option.some.inj run).symm⟩

theorem generateUnits_eq_cons {depth : Nat} {options : BindOptions} {index : ProjectIndex}
    {unit : SourceUnit} {relative : String} {later : List (SourceUnit × String)}
    {result : UnitResult} {turns : List Turn}
    (run : generateUnit depth options index unit relative = some result)
    (laterRun : generateUnits depth options result.index later = some turns) :
    generateUnits depth options index ((unit, relative) :: later) =
      some (⟨.ofUnit depth unit options index relative, result⟩ :: turns) := by
  rw [generateUnits, run]
  simp [laterRun]

/-! ## The units of a job -/

theorem Run.run_bind_eq_ok {α β : Type} {first : Run α} {rest : α → Run β} {value : β}
    {before after : RunState} (run : (first >>= rest).run.run before = (.ok value, after)) :
    ∃ middle between, first.run.run before = (.ok middle, between) ∧
      (rest middle).run.run between = (.ok value, after) := by
  rw [ExceptT.run_bind, StateT.run_bind] at run
  cases answered : first.run.run before with
  | mk answer between =>
      rw [answered] at run
      cases answer with
      | error error => cases run
      | ok middle => exact ⟨middle, between, rfl, run⟩

namespace Job

/-- The trees of the headers that can be parsed, each with the path of its header. -/
def sources (job : Job) (inputs : List UnitInput) : List (SourceUnit × String) :=
  inputs.filterMap fun input => (job.tree? input).toOption.map fun unit => (unit, input.relative)

theorem run_observing_parse (job : Job) (input : UnitInput) (state : RunState) :
    (observing (job.parse input)).run.run state =
      (.ok (job.tree? input), { state with calls := state.calls ++ [job.frontendArgs] }) := by
  unfold observing parse
  cases job.tree? input with
  | ok unit => rfl
  | error error => rfl

theorem run_bind_eq_ok {job : Job} {options : BindOptions} {index : ProjectIndex}
    {input : UnitInput} {unit : SourceUnit} {bound : UnitBindings × ProjectIndex}
    {before after : RunState}
    (run : (job.bind options index input unit).run.run before = (.ok bound, after)) :
    ∃ result, generateUnit job.depth options index unit input.relative = some result ∧
      bound = (result.bindings, result.index) := by
  unfold bind at run
  cases generated : generateUnit job.depth options index unit input.relative with
  | none =>
      rw [generated] at run
      cases run
  | some result =>
      rw [generated] at run
      cases run
      exact ⟨result, rfl, rfl⟩

/-- A job generates the headers that can be parsed one after the other. -/
theorem generateUnits_of_bindAll {job : Job} {options : BindOptions} {index : ProjectIndex}
    {inputs : List UnitInput} {units : List UnitBindings} {failures : List UnitFailure}
    {before after : RunState}
    (run : (job.bindAll options index inputs).run.run before = (.ok (units, failures), after)) :
    ∃ turns, generateUnits job.depth options index (job.sources inputs) = some turns ∧
      turns.map (·.result.bindings) = units := by
  induction inputs generalizing index units failures before after with
  | nil =>
      cases run
      exact ⟨[], rfl, rfl⟩
  | cons input later ih =>
      unfold bindAll at run
      obtain ⟨answer, asked, parseRun, run⟩ := Run.run_bind_eq_ok run
      rw [run_observing_parse] at parseRun
      cases parsed : job.tree? input with
      | ok unit =>
          rw [parsed] at parseRun
          cases parseRun
          obtain ⟨bound, made, bindRun, run⟩ := Run.run_bind_eq_ok run
          obtain ⟨result, generated, rfl⟩ := run_bind_eq_ok bindRun
          obtain ⟨⟨others, failed⟩, last, laterRun, run⟩ := Run.run_bind_eq_ok run
          cases run
          obtain ⟨turns, follow, same⟩ := ih laterRun
          have front : job.sources (input :: later) =
              (unit, input.relative) :: job.sources later := by
            simp [sources, parsed, Except.toOption]
          refine ⟨⟨.ofUnit job.depth unit options index input.relative, result⟩ :: turns, ?_, ?_⟩
          · rw [front]
            exact generateUnits_eq_cons generated follow
          · rw [List.map_cons, same]
      | error error =>
          rw [parsed] at parseRun
          cases parseRun
          obtain ⟨_, reported, _, run⟩ := Run.run_bind_eq_ok run
          obtain ⟨⟨others, failed⟩, last, laterRun, run⟩ := Run.run_bind_eq_ok run
          cases run
          have front : job.sources (input :: later) = job.sources later := by
            simp [sources, parsed, Except.toOption]
          rw [front]
          exact ih laterRun

end Job

/-! ## What a unit finds -/

theorem lookup_eq_none_iff_not_mem_keys {key : String} {entries : List (String × String)} :
    entries.lookup key = none ↔ key ∉ entries.map Prod.fst := by
  refine ⟨not_mem_keys_of_lookup_eq_none, fun absent => ?_⟩
  refine List.lookup_eq_none_iff.mpr fun entry member => bne_iff_ne.mpr fun same => ?_
  exact absent (same ▸ List.mem_map_of_mem member)

theorem lookup_eq_of_perm {left right : List (String × String)} (same : left.Perm right)
    (distinct : (left.map Prod.fst).Nodup) (key : String) : left.lookup key = right.lookup key := by
  have alike := (same.map Prod.fst).nodup_iff.mp distinct
  refine Option.ext fun value => ?_
  rw [lookup_eq_some_iff_mem distinct, lookup_eq_some_iff_mem alike, same.mem_iff]

theorem knownClass?_of_generateUnit {depth : Nat} {options : BindOptions} {index : ProjectIndex}
    {unit : SourceUnit} {relative : String} {result : UnitResult}
    (run : generateUnit depth options index unit relative = some result) (cppType : String) :
    result.index.knownClass? cppType =
      (index.knownClass? cppType).or ((allBound result.bindings.fragments).lookup cppType) := by
  obtain ⟨progress, visitRun, indexed, -⟩ := generateUnit_eq_some run
  obtain ⟨sound, bound⟩ := balanced_of_visitUnit visitRun
  have distinct := (bound.map Prod.fst).nodup_iff.mpr sound.types
  rw [indexed, ProjectIndex.knownClass?_recordUnit, sound.classes,
    lookup_eq_of_perm bound distinct]

/-- A unit is traversed with the index that some units leave, given the one before them. -/
structure Turn.ComesAfter (index : ProjectIndex) (earlier : List Turn) (turn : Turn) : Prop where
  visited : ∃ progress,
    turn.context.visitUnit.run ⟨UnitState.empty, []⟩ = some (turn.fragments, progress) ∧
      turn.result.bindings = turn.context.bindings turn.fragments progress.unit
  known : ∀ cppType, turn.context.index.knownClass? cppType =
    (index.knownClass? cppType).or ((typesOf earlier).lookup cppType)

theorem Turn.ComesAfter.nodup_types {index : ProjectIndex} {earlier : List Turn} {turn : Turn}
    (after : turn.ComesAfter index earlier) : (turn.types.map Prod.fst).Nodup := by
  obtain ⟨⟨progress, run, -⟩, -⟩ := after
  obtain ⟨sound, bound⟩ := balanced_of_visitUnit run
  exact (bound.map Prod.fst).nodup_iff.mpr sound.types

theorem comesAfter_everywhere {depth : Nat} {options : BindOptions} {index : ProjectIndex}
    {sources : List (SourceUnit × String)} {turns : List Turn}
    (run : generateUnits depth options index sources = some turns) :
    Everywhere (fun earlier turn _ => turn.ComesAfter index earlier) turns := by
  induction sources generalizing index turns with
  | nil =>
      cases Option.some.inj run
      exact .nil
  | cons source later ih =>
      obtain ⟨unit, relative⟩ := source
      obtain ⟨result, rest, unitRun, laterRun, rfl⟩ := generateUnits_cons run
      rw [← List.singleton_append]
      refine .append (.singleton ⟨bindings_of_generateUnit unitRun, fun cppType => ?_⟩) ?_
      · exact (Option.or_none).symm
      · -- For a later unit the first one counts as earlier, not as what the index begins with.
        intro earlier turn behind parts
        obtain ⟨visited, known⟩ := ih laterRun earlier turn behind parts
        refine ⟨visited, fun cppType => ?_⟩
        rw [known, knownClass?_of_generateUnit unitRun, Option.or_assoc, ← List.lookup_append]
        rfl

/-- The header at a path whose declarations steps of construction give. -/
def SourceUnit.ofHeader (path : String) (steps : List TreeBuilder.Step) : SourceUnit :=
  (TreeBuilder.performAll (TreeBuilder.start path) steps).unit

end Bindery
