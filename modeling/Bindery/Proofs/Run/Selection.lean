import Bindery.Proofs.Attempts
import Bindery.Proofs.Run.Failures
import Bindery.Proofs.Run.InputOrder
import Mathlib.Data.List.ReduceOption

/-!
# Which headers are selected

Headers are collected pattern by pattern, and those that are skipped are left out on the way.  What
is collected for a pattern and what is left out depends on no other pattern, so in the end only the
sets of the patterns count: their order, repetitions and overlaps do not.
-/

set_option autoImplicit false

namespace Bindery

/-! ## Parts of a run that change no files -/

namespace Run

variable {α β : Type} {files : FileTree}

/-- What a part of a run answers from some files, which it leaves as they are, whatever was done
before. -/
def Answers (files : FileTree) (action : Run α) (answer : Except RunError α) : Prop :=
  ∀ state : RunState, state.files = files →
    ∃ after : RunState, after.files = files ∧ action.run.run state = (answer, after)

namespace Answers

theorem pure (value : α) : Answers files (Pure.pure value) (.ok value) :=
  fun state same => ⟨state, same, rfl⟩

theorem throw (error : RunError) : Answers files (throw error : Run α) (.error error) :=
  fun state same => ⟨state, same, rfl⟩

theorem lift (answer : Except RunError α) : Answers files (liftM answer) answer :=
  fun state same => ⟨state, same, by cases answer <;> rfl⟩

theorem report (event : Event) : Answers files (Run.report event) (.ok ()) :=
  fun state same => ⟨{ state with events := state.events ++ [event] }, same, rfl⟩

theorem bind {first : Run α} {rest : α → Run β} {answer : Except RunError α}
    {next : α → Except RunError β} (begins : Answers files first answer)
    (goesOn : ∀ value, Answers files (rest value) (next value)) :
    Answers files (first >>= rest) (answer >>= next) := by
  intro state same
  obtain ⟨between, kept, run⟩ := begins state same
  cases answer with
  | error error => exact ⟨between, kept, run_bind_of_eq_error run⟩
  | ok value =>
      obtain ⟨after, last, later⟩ := goesOn value between kept
      exact ⟨after, last, (run_bind_of_eq_ok run).trans later⟩

theorem bind_files {rest : FileTree → Run β} {answer : Except RunError β}
    (goesOn : Answers files (rest files) answer) : Answers files (Run.files >>= rest) answer := by
  intro state same
  obtain ⟨after, kept, run⟩ := goesOn state same
  subst same
  exact ⟨after, kept, run⟩

theorem mapM {step : α → Run β} {next : α → Except RunError β}
    (each : ∀ value, Answers files (step value) (next value)) (values : List α) :
    Answers files (values.mapM step) (values.mapM next) := by
  induction values with
  | nil =>
      rw [List.mapM_nil, List.mapM_nil]
      exact .pure []
  | cons value values ih =>
      rw [List.mapM_cons, List.mapM_cons]
      exact .bind (each value) fun _ => .bind ih fun _ => .pure _

end Answers

end Run

namespace Job

/-! ## What is collected -/

/-- The tokens of a file pattern. -/
def patternTokens (pattern : String) : Except RunError (List Glob.Token) :=
  (Glob.parse pattern).mapError (.filePattern pattern)

/-- The header at a matched path, if it is a file and no skip pattern matches it. -/
def headerAt (job : Job) (files : FileTree) (skips : List (List Glob.Token)) (path : String) :
    Except RunError (Option UnitInput) := do
  if files.isFile path then
    let relative ← job.relativePath path
    return if skips.any (Glob.matchesAll · relative) then none else some ⟨relative, path⟩
  else
    return none

/-- The headers that one pattern selects. -/
def headersOf (job : Job) (files : FileTree) (skips : List (List Glob.Token)) (pattern : String) :
    Except RunError (List UnitInput) := do
  let _ ← patternTokens pattern
  let paths ← (Glob.list files (Path.join job.config.project.input pattern)).mapError
    (.filePattern pattern)
  return (← paths.mapM (job.headerAt files skips)).reduceOption

/-- The headers that the patterns select, in order and each once. -/
def selection (job : Job) (files : FileTree) : Except RunError (List UnitInput) := do
  let skips ← job.config.files.skip.mapM patternTokens
  let found ← job.config.files.patterns.mapM (job.headersOf files skips)
  return UnitInput.normalize found.flatten

section

variable {job : Job} {files : FileTree}

theorem patternTokens_eq_ok_iff {pattern : String} {tokens : List Glob.Token} :
    patternTokens pattern = .ok tokens ↔ Glob.parse pattern = .ok tokens := by
  unfold patternTokens
  cases Glob.parse pattern <;> simp [Except.mapError]

theorem answers_compilePattern (pattern : String) :
    Run.Answers files (compilePattern pattern) (patternTokens pattern) := by
  unfold compilePattern patternTokens
  cases Glob.parse pattern with
  | error error => exact .throw _
  | ok tokens => exact .pure tokens

theorem answers_selectInput (skips : List (List Glob.Token)) (path : String) :
    Run.Answers files (job.selectInput skips path) (job.headerAt files skips path) := by
  refine .bind_files ?_
  unfold headerAt
  split
  · refine .bind (.lift _) fun relative => ?_
    split
    · exact (Run.Answers.report _).bind fun _ => .pure none
    · exact .pure _
  · exact .pure none

theorem answers_selectInputs (skips : List (List Glob.Token)) (pattern : String) :
    Run.Answers files (job.selectInputs skips pattern) (job.headersOf files skips pattern) := by
  refine .bind (answers_compilePattern pattern) fun _ => .bind_files ?_
  cases Glob.list files (Path.join job.config.project.input pattern) with
  | error error => exact .throw _
  | ok paths => exact .bind (.mapM (answers_selectInput skips) paths) fun _ => .pure _

theorem answers_inputs : Run.Answers files job.inputs (job.selection files) :=
  .bind (.mapM answers_compilePattern _) fun skips =>
    .bind (.mapM (answers_selectInputs skips) _) fun _ => .pure _

theorem run_inputs (state : RunState) :
    (job.inputs.run.run state).1 = job.selection state.files := by
  obtain ⟨after, -, run⟩ := @answers_inputs job state.files state rfl
  rw [run]

theorem selection_eq_ok_iff {found : List UnitInput} :
    job.selection files = .ok found ↔ ∃ skips groups,
      job.config.files.skip.mapM patternTokens = .ok skips ∧
        job.config.files.patterns.mapM (job.headersOf files skips) = .ok groups ∧
        found = UnitInput.normalize groups.flatten := by
  simp only [selection, except_bind_eq_ok, pure, Except.pure, Except.ok.injEq]
  constructor
  · rintro ⟨skips, skipsRead, groups, run, rfl⟩
    exact ⟨skips, groups, skipsRead, run, rfl⟩
  · rintro ⟨skips, groups, skipsRead, run, rfl⟩
    exact ⟨skips, skipsRead, groups, run, rfl⟩

/-! ## What selects a header -/

/-- Whether some pattern matches a header, which has to be a file in the input directory, and no
skip pattern does. -/
structure Selects (job : Job) (files : FileTree) (input : UnitInput) : Prop where
  matched : ∃ pattern ∈ job.config.files.patterns, ∃ paths,
    Glob.list files (Path.join job.config.project.input pattern) = .ok paths ∧ input.path ∈ paths
  isFile : files.isFile input.path = true
  relative : job.relativePath input.path = .ok input.relative
  kept : ∀ pattern ∈ job.config.files.skip, ∀ tokens, Glob.parse pattern = .ok tokens →
    Glob.matchesAll tokens input.relative = false

theorem headerAt_eq_ok_some_iff {skips : List (List Glob.Token)} {path : String}
    {input : UnitInput} :
    job.headerAt files skips path = .ok (some input) ↔
      path = input.path ∧ files.isFile path = true ∧
        job.relativePath path = .ok input.relative ∧
        ∀ tokens ∈ skips, Glob.matchesAll tokens input.relative = false := by
  unfold headerAt
  by_cases isFile : files.isFile path = true
  · rw [if_pos isFile, except_bind_eq_ok]
    constructor
    · rintro ⟨relative, below, answer⟩
      split at answer
      · cases answer
      · rename_i missed
        cases answer
        exact ⟨rfl, isFile, below, by simpa using missed⟩
    · rintro ⟨rfl, -, below, missed⟩
      refine ⟨input.relative, below, ?_⟩
      rw [if_neg (by simpa using missed)]
      rfl
  · rw [if_neg isFile]
    simp [isFile, pure, Except.pure]

theorem mem_of_headersOf_eq_ok {skips : List (List Glob.Token)} {pattern : String}
    {found : List UnitInput} {input : UnitInput}
    (run : job.headersOf files skips pattern = .ok found) :
    input ∈ found ↔ ∃ paths,
      Glob.list files (Path.join job.config.project.input pattern) = .ok paths ∧
        input.path ∈ paths ∧ job.headerAt files skips input.path = .ok (some input) := by
  obtain ⟨_, -, run⟩ := except_bind_eq_ok.mp run
  obtain ⟨paths, listed, run⟩ := except_bind_eq_ok.mp run
  obtain ⟨headers, each, answer⟩ := except_bind_eq_ok.mp run
  cases answer
  cases answered : Glob.list files (Path.join job.config.project.input pattern) with
  | error error =>
      rw [answered] at listed
      cases listed
  | ok given =>
      rw [answered] at listed
      cases listed
      rw [List.reduceOption_mem_iff, mem_iff_of_mapM_eq_ok each]
      simp only [Except.ok.injEq, exists_eq_left']
      constructor
      · rintro ⟨path, member, found⟩
        obtain rfl := (headerAt_eq_ok_some_iff.mp found).1
        exact ⟨member, found⟩
      · rintro ⟨member, found⟩
        exact ⟨input.path, member, found⟩

/-- What a job collects are the headers that its patterns select. -/
theorem mem_flatten_iff_selects {skips : List (List Glob.Token)} {groups : List (List UnitInput)}
    {input : UnitInput} (skipsRead : job.config.files.skip.mapM patternTokens = .ok skips)
    (run : job.config.files.patterns.mapM (job.headersOf files skips) = .ok groups) :
    input ∈ groups.flatten ↔ job.Selects files input := by
  have isSkip {tokens : List Glob.Token} :
      tokens ∈ skips ↔ ∃ pattern ∈ job.config.files.skip, Glob.parse pattern = .ok tokens := by
    simp only [mem_iff_of_mapM_eq_ok skipsRead, patternTokens_eq_ok_iff]
  rw [List.mem_flatten]
  constructor
  · rintro ⟨group, isGroup, member⟩
    obtain ⟨pattern, isPattern, found⟩ := (mem_iff_of_mapM_eq_ok run).mp isGroup
    obtain ⟨paths, listed, isPath, chosen⟩ := (mem_of_headersOf_eq_ok found).mp member
    obtain ⟨-, isFile, relative, missed⟩ := headerAt_eq_ok_some_iff.mp chosen
    exact ⟨⟨pattern, isPattern, paths, listed, isPath⟩, isFile, relative,
      fun skip isIn tokens parsed => missed tokens (isSkip.mpr ⟨skip, isIn, parsed⟩)⟩
  · intro selects
    obtain ⟨pattern, isPattern, paths, listed, isPath⟩ := selects.matched
    obtain ⟨group, found⟩ := exists_mapM_eq_ok_iff.mp ⟨groups, run⟩ pattern isPattern
    refine ⟨group, (mem_iff_of_mapM_eq_ok run).mpr ⟨pattern, isPattern, found⟩,
      (mem_of_headersOf_eq_ok found).mpr ⟨paths, listed, isPath, ?_⟩⟩
    refine headerAt_eq_ok_some_iff.mpr ⟨rfl, selects.isFile, selects.relative, ?_⟩
    intro tokens member
    obtain ⟨skip, isIn, parsed⟩ := isSkip.mp member
    exact selects.kept skip isIn tokens parsed

/-! ## Only the sets of the patterns count -/

theorem headerAt_congr {other : Job} {skips others : List (List Glob.Token)}
    (directory : other.config.project.input = job.config.project.input)
    (members : ∀ tokens, tokens ∈ others ↔ tokens ∈ skips) :
    other.headerAt files others = job.headerAt files skips := by
  funext path
  have relative : other.relativePath path = job.relativePath path := by
    rw [relativePath, directory, relativePath]
  have missed (relative : String) : (others.any (Glob.matchesAll · relative)) =
      skips.any (Glob.matchesAll · relative) := by
    rw [Bool.eq_iff_iff]
    simp only [List.any_eq_true, members]
  simp only [headerAt, relative, missed]

theorem headersOf_congr {other : Job} {skips others : List (List Glob.Token)}
    (directory : other.config.project.input = job.config.project.input)
    (members : ∀ tokens, tokens ∈ others ↔ tokens ∈ skips) :
    other.headersOf files others = job.headersOf files skips := by
  funext pattern
  rw [headersOf, directory, headerAt_congr directory members, headersOf]

/-- Jobs with the same patterns, whatever their order and number, select the same. -/
theorem selection_congr {other : Job} {found : List UnitInput}
    (directory : other.config.project.input = job.config.project.input)
    (patterns : ∀ pattern,
      pattern ∈ other.config.files.patterns ↔ pattern ∈ job.config.files.patterns)
    (skips : ∀ pattern, pattern ∈ other.config.files.skip ↔ pattern ∈ job.config.files.skip)
    (run : job.selection files = .ok found) :
    ∃ selected, other.selection files = .ok selected ∧
      List.Forall₂ (fun first second => first.same second = true) selected found ∧
      ∀ input, input ∈ found ∨ input ∈ selected → job.Selects files input := by
  obtain ⟨read, groups, skipsRead, grouped, rfl⟩ := selection_eq_ok_iff.mp run
  obtain ⟨others, othersRead, sameTokens⟩ := mapM_congr_members skips skipsRead
  rw [← headersOf_congr directory sameTokens] at grouped
  obtain ⟨regrouped, otherRun, sameGroups⟩ := mapM_congr_members patterns grouped
  rw [headersOf_congr directory sameTokens] at grouped
  have members (input : UnitInput) : input ∈ regrouped.flatten ↔ input ∈ groups.flatten := by
    simp only [List.mem_flatten, sameGroups]
  refine ⟨_, selection_eq_ok_iff.mpr ⟨others, regrouped, othersRead, otherRun, rfl⟩,
    UnitInput.normalize_congr members, fun input member => ?_⟩
  refine (mem_flatten_iff_selects skipsRead grouped).mp ?_
  rcases member with inFound | inSelected
  · exact UnitInput.of_mem_normalize inFound
  · exact (members input).mp (UnitInput.of_mem_normalize inSelected)

end

/-! ## A header in two spellings -/

/-- A directory with three headers, one of them old. -/
def shelf : FileTree :=
  ⟨[(["in", "a.hpp"], ""), (["in", "b.hpp"], ""), (["in", "old.hpp"], "")], [["in"]], []⟩

/-- A job for headers of the directory. -/
def shelfJob (patterns skip : List String) : Job :=
  ⟨⟨⟨"shelf", "in", "out"⟩, ⟨patterns, skip⟩, [], Config.defaultSymbols⟩,
    fun path _ => .ok (.ofHeader path []), 1⟩

theorem shelf_inputs :
    ((shelfJob ["a.hpp", "./a.hpp", "b.hpp", "old.hpp"] ["old*", "*.txt"]).inputs.run.run
      ⟨shelf, [], []⟩).1 = .ok [⟨"a.hpp", "in/a.hpp"⟩, ⟨"b.hpp", "in/b.hpp"⟩] := by
  have skipsRead : ["old*", "*.txt"].mapM patternTokens = .ok
      [[.char 'o', .char 'l', .char 'd', .anyText],
        [.anyText, .char '.', .char 't', .char 'x', .char 't']] := by decide +kernel
  rw [run_inputs, selection_eq_ok_iff]
  refine ⟨_, [[⟨"a.hpp", "in/a.hpp"⟩], [⟨"a.hpp", "in/./a.hpp"⟩], [⟨"b.hpp", "in/b.hpp"⟩], []],
    skipsRead, by decide +kernel, ?_⟩
  rw [UnitInput.normalize, List.mergeSort_of_pairwise (by decide +kernel)]
  decide +kernel

end Job

end Bindery
