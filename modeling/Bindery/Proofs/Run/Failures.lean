import Bindery.Proofs.Binding.Sequence

/-!
# Headers that fail

A header without a tree is reported and otherwise passed over: the index that the later headers find
is the one that the parsed headers before them have left.  So a run gives the same bindings as a run
over the headers that can be parsed.
-/

set_option autoImplicit false

namespace Bindery

namespace Run

variable {α β : Type} {first : Run α} {rest : α → Run β} {before after : RunState}

theorem run_bind_of_eq_ok {value : α} (run : first.run.run before = (.ok value, after)) :
    (first >>= rest).run.run before = (rest value).run.run after := by
  rw [ExceptT.run_bind, StateT.run_bind, run]
  rfl

theorem run_bind_of_eq_error {error : RunError}
    (run : first.run.run before = (.error error, after)) :
    (first >>= rest).run.run before = (.error error, after) := by
  rw [ExceptT.run_bind, StateT.run_bind, run]
  rfl

/-- A step that only reads the answer of the one before it does not depend on the state. -/
theorem answer_bind_pure (f : α → β) :
    ((first >>= fun value => pure (f value)).run.run before).1 =
      (first.run.run before).1.map f := by
  rw [ExceptT.run_bind, StateT.run_bind]
  cases answered : first.run.run before with
  | mk answer between =>
      cases answer with
      | error error => rfl
      | ok value => rfl

end Run

namespace Job

/-- Whether the front-end gives a tree for a header. -/
def parses (job : Job) (input : UnitInput) : Bool :=
  (job.tree? input).isOk

/-- The failures among some headers, in their order. -/
def failuresAmong (job : Job) (inputs : List UnitInput) : List UnitFailure :=
  inputs.filterMap fun input =>
    match job.tree? input with
    | .ok _ => none
    | .error error => some ⟨input, error⟩

/-- The bindings of the given headers: what is generated once the headers are selected. -/
def generateFrom (job : Job) (inputs : List UnitInput) : Run Generation := do
  let options ← job.options
  let (units, failures) ← job.bindAll options ProjectIndex.empty inputs
  Run.report (.generationFinished units.length failures.length)
  return ⟨ProjectBindings.ofUnits job.config.project.name units, failures⟩

theorem generate_eq (job : Job) : job.generate = job.inputs >>= job.generateFrom :=
  rfl

/-- The turns of the headers that can be parsed, each with the index that those before it leave. -/
def turns (job : Job) (options : BindOptions) :
    ProjectIndex → List UnitInput → Except RunError (List Turn)
  | _, [] => .ok []
  | index, input :: later =>
      match job.tree? input with
      | .error _ => job.turns options index later
      | .ok unit =>
          match generateUnit job.depth options index unit input.relative with
          | none => .error (.tooDeep input.path)
          | some result =>
              (job.turns options result.index later).map fun rest =>
                ⟨.ofUnit job.depth unit options index input.relative, result⟩ :: rest

variable {job : Job}

theorem parses_of_ok {input : UnitInput} {unit : SourceUnit} (parsed : job.tree? input = .ok unit) :
    job.parses input = true := by
  rw [parses, parsed]
  rfl

theorem parses_of_error {input : UnitInput} {error : RunError}
    (failed : job.tree? input = .error error) : job.parses input = false := by
  rw [parses, failed]
  rfl

/-- Only the headers that can be parsed have turns. -/
theorem turns_filter_parses (options : BindOptions) (index : ProjectIndex)
    (inputs : List UnitInput) :
    job.turns options index (inputs.filter job.parses) = job.turns options index inputs := by
  induction inputs generalizing index with
  | nil => rfl
  | cons input later ih =>
      cases parsed : job.tree? input with
      | error error =>
          rw [List.filter_cons_of_neg (by simp [parses_of_error parsed]), ih, turns, parsed]
      | ok unit =>
          rw [List.filter_cons_of_pos (parses_of_ok parsed), turns, turns, parsed]
          dsimp only
          split
          · rfl
          · rw [ih]

theorem toOption_turns (options : BindOptions) (index : ProjectIndex) (inputs : List UnitInput) :
    (job.turns options index inputs).toOption =
      generateUnits job.depth options index (job.sources inputs) := by
  induction inputs generalizing index with
  | nil => rfl
  | cons input later ih =>
      cases parsed : job.tree? input with
      | error error =>
          have passed : job.sources (input :: later) = job.sources later := by
            simp [sources, parsed, Except.toOption]
          rw [turns, parsed, passed, ← ih]
      | ok unit =>
          have front : job.sources (input :: later) =
              (unit, input.relative) :: job.sources later := by
            simp [sources, parsed, Except.toOption]
          rw [turns, parsed, front, generateUnits]
          dsimp only
          cases generateUnit job.depth options index unit input.relative with
          | none => rfl
          | some result =>
              dsimp only
              rw [Option.bind_eq_bind, Option.bind_some, ← ih]
              cases job.turns options result.index later <;> rfl

/-- The headers that are reported are those that cannot be parsed. -/
theorem inputs_failuresAmong (inputs : List UnitInput) :
    (job.failuresAmong inputs).map (·.input) = inputs.filter fun input => !job.parses input := by
  induction inputs with
  | nil => rfl
  | cons input later ih =>
      unfold failuresAmong at ih ⊢
      cases answer : job.tree? input with
      | ok unit => simp [answer, parses_of_ok answer, ih]
      | error error => simp [answer, parses_of_error answer, ih]

theorem run_bind (options : BindOptions) (index : ProjectIndex) (input : UnitInput)
    (unit : SourceUnit) (state : RunState) :
    ∃ after, (job.bind options index input unit).run.run state =
      (match generateUnit job.depth options index unit input.relative with
        | none => .error (.tooDeep input.path)
        | some result => .ok (result.bindings, result.index), after) := by
  unfold bind
  cases generateUnit job.depth options index unit input.relative with
  | none => exact ⟨_, rfl⟩
  | some result => exact ⟨_, rfl⟩

/-- What the loop over the headers answers, whatever was done before: the units of the turns, and
the failures. -/
theorem run_bindAll (options : BindOptions) (index : ProjectIndex) (inputs : List UnitInput)
    (state : RunState) :
    ((job.bindAll options index inputs).run.run state).1 =
      (job.turns options index inputs).map fun turns =>
        (turns.map (·.result.bindings), job.failuresAmong inputs) := by
  induction inputs generalizing index state with
  | nil => rfl
  | cons input later ih =>
      rw [bindAll, Run.run_bind_of_eq_ok (run_observing_parse job input state), turns,
        failuresAmong, List.filterMap_cons]
      cases parsed : job.tree? input with
      | error error =>
          dsimp only
          rw [Run.run_bind_of_eq_ok (by rfl), Run.answer_bind_pure, ih]
          cases job.turns options index later <;> rfl
      | ok unit =>
          dsimp only
          obtain ⟨after, bindRun⟩ := run_bind options index input unit
            { state with calls := state.calls ++ [job.frontendArgs] }
          cases generated : generateUnit job.depth options index unit input.relative with
          | none =>
              rw [generated] at bindRun
              rw [Run.run_bind_of_eq_error bindRun]
              rfl
          | some result =>
              rw [generated] at bindRun
              rw [Run.run_bind_of_eq_ok bindRun, Run.answer_bind_pure, ih]
              dsimp only
              cases job.turns options result.index later <;> rfl

/-- What the headers of a run give: the bindings of the turns, and the failures. -/
theorem run_generateFrom (inputs : List UnitInput) (state : RunState) :
    ((job.generateFrom inputs).run.run state).1 =
      job.options.bind fun options => (job.turns options .empty inputs).map fun turns =>
        ⟨ProjectBindings.ofUnits job.config.project.name (turns.map (·.result.bindings)),
          job.failuresAmong inputs⟩ := by
  unfold generateFrom
  cases read : job.options with
  | error error => rfl
  | ok options =>
      rw [Run.run_bind_of_eq_ok (by rfl), ExceptT.run_bind, StateT.run_bind]
      dsimp only [Except.bind]
      cases answered : (job.bindAll options .empty inputs).run.run state with
      | mk answer after =>
          have given := @run_bindAll job options .empty inputs state
          rw [answered] at given
          dsimp only at given
          subst given
          cases job.turns options .empty inputs <;> rfl

/-- A header that fails leaves no trace.  Whatever headers are selected, those that cannot be parsed
are reported in their order; the bindings are those of the run over the other headers alone; and
these are generated one after the other, each with the index that the parsed headers before it
leave. -/
theorem failing_headers_leave_no_trace (job : Job) (inputs : List UnitInput)
    (state other : RunState) :
    job.generate = job.inputs >>= job.generateFrom ∧
    (job.failuresAmong inputs).map (·.input) = (inputs.filter fun input => !job.parses input) ∧
    ((job.generateFrom inputs).run.run state).1 =
      (((job.generateFrom (inputs.filter job.parses)).run.run other).1.map fun clean =>
        ⟨clean.project, job.failuresAmong inputs⟩) ∧
    ((job.generateFrom inputs).run.run state).1.toOption.map (·.project.units) =
      job.options.toOption.bind fun options =>
        (generateUnits job.depth options .empty (job.sources (inputs.filter job.parses))).map
          fun turns => turns.map (·.result.bindings) := by
  refine ⟨job.generate_eq, inputs_failuresAmong inputs, ?_, ?_⟩
  · rw [run_generateFrom, run_generateFrom]
    cases job.options with
    | error error => rfl
    | ok options =>
        dsimp only [Except.bind]
        rw [turns_filter_parses]
        cases job.turns options .empty inputs <;> rfl
  · rw [run_generateFrom]
    cases job.options with
    | error error => rfl
    | ok options =>
        dsimp only [Except.bind, Except.toOption, Option.bind]
        rw [← toOption_turns, turns_filter_parses]
        cases job.turns options .empty inputs <;> rfl

end Job

end Bindery
