import Bindery.Run.Write
import Bindery.Proofs.Name.Case
import Bindery.Proofs.Run.Failures
import Bindery.Proofs.Run.Paths
import Bindery.Proofs.Binding.Provenance
import Mathlib.Data.List.Nodup

/-!
# Generated files and init functions

The files of a header are named after its directory and its stem, and those of the project after its
name.  So two files of a run are written to the same path if and only if they are named after the
same directory and stem; and two init functions have the same name if and only if they are made of
the same words.
-/

set_option autoImplicit false
set_option maxRecDepth 100000

namespace Bindery

/-! ## Paths -/

/-- What generated files are named after: a directory and a stem. -/
structure Target where
  folder : List Path.Component
  stem : String
deriving Repr, DecidableEq

namespace Target

/-- The files of a header stand in its directory, seen from that of the output. -/
def ofHeader (output relative : String) : Target :=
  ⟨Path.components (Path.join output (Path.directory relative)),
    (Path.fileStem? relative).getD ""⟩

/-- The files of a project stand in the directory that its name leads to. -/
def ofProject (output name : String) : Target :=
  ⟨Path.components (Path.join output (Path.upToSlash name)), Path.behindSlash name⟩

/-- The components of a file. -/
def file (target : Target) (extension : String) : List Path.Component :=
  target.folder ++ [.name (target.stem ++ "-rb." ++ extension)]

theorem not_mem_suffix {extension : String} (noSlash : '/' ∉ extension.toList) :
    '/' ∉ ("-rb." ++ extension).toList := by
  rw [String.toList_append]
  simpa using noSlash

theorem isFileName {stem extension : String} (noSlash : '/' ∉ stem.toList)
    (plain : '/' ∉ extension.toList) :
    Path.IsFileName (stem ++ "-rb." ++ extension).toList := by
  have hyphen : '-' ∈ (stem ++ "-rb." ++ extension).toList := by simp
  refine ⟨?_, ?_, ?_⟩
  · rw [String.append_assoc, String.toList_append, List.mem_append]
    exact not_or.mpr ⟨noSlash, not_mem_suffix plain⟩
  · cases idle : Path.isIdle (stem ++ "-rb." ++ extension).toList with
    | false => rfl
    | true =>
        rcases Bool.or_eq_true_iff.mp idle with empty | here
        · rw [List.isEmpty_iff.mp empty] at hyphen
          exact absurd hyphen List.not_mem_nil
        · rw [eq_of_beq here] at hyphen
          exact absurd hyphen (by decide)
  · intro up
    rw [up] at hyphen
    exact absurd hyphen (by decide)

/-- A file tells what it is named after, and its extension. -/
theorem eq_of_file_eq {first second : Target} {left right : String}
    (long : left.length = right.length) (same : first.file left = second.file right) :
    first = second ∧ left = right := by
  obtain ⟨folders, names⟩ := List.append_inj' same rfl
  have texts : first.stem ++ ("-rb." ++ left) = second.stem ++ ("-rb." ++ right) := by
    rw [← String.append_assoc, ← String.append_assoc]
    exact Path.Component.name.inj (List.singleton_inj.mp names)
  have letters := congrArg String.toList texts
  simp only [String.toList_append] at letters
  have suffixLong :
      ("-rb.".toList ++ left.toList).length = ("-rb.".toList ++ right.toList).length := by
    simp only [List.length_append, String.length_toList, long]
  obtain ⟨stems, suffixes⟩ := List.append_inj' letters suffixLong
  refine ⟨?_, String.toList_inj.mp (List.append_cancel_left suffixes)⟩
  cases first
  cases second
  cases folders
  cases String.toList_inj.mp stems
  rfl

/-- Files differ if and only if they are named after different targets, given that the extensions
with each target are of one length, different and at least one. -/
theorem nodup_files_iff {length : Nat} {groups : List (Target × List String)}
    (each : ∀ group ∈ groups, group.2.Nodup ∧ "hpp" ∈ group.2 ∧
      ∀ extension ∈ group.2, extension.length = length) :
    (groups.flatMap fun group => group.2.map group.1.file).Nodup ↔ (groups.map (·.1)).Nodup := by
  have inside : ∀ group ∈ groups, (group.2.map group.1.file).Nodup := fun group member =>
    (each group member).1.map_on fun left inLeft right inRight same =>
      (eq_of_file_eq (((each group member).2.2 left inLeft).trans
        ((each group member).2.2 right inRight).symm) same).2
  rw [List.nodup_flatMap, and_iff_right inside, List.Nodup, List.pairwise_map]
  refine List.Pairwise.iff_of_mem fun {first second} inFirst inSecond => ?_
  constructor
  · intro apart same
    refine apart (List.mem_map_of_mem (each first inFirst).2.1) ?_
    rw [same]
    exact List.mem_map_of_mem (each second inSecond).2.1
  · intro differ path inLeft inRight
    obtain ⟨left, isLeft, rfl⟩ := List.mem_map.mp inLeft
    obtain ⟨right, isRight, same⟩ := List.mem_map.mp inRight
    have long := ((each second inSecond).2.2 right isRight).trans
      ((each first inFirst).2.2 left isLeft).symm
    exact differ (eq_of_file_eq long same).1.symm

variable {extension : String} (plain : '/' ∉ extension.toList)
include plain

theorem components_artifact (output relative : String) :
    Path.components (Path.join output (Name.artifact relative extension)) =
      (ofHeader output relative).file extension := by
  have noSlash : '/' ∉ ((Path.fileStem? relative).getD "").toList := by
    cases named : Path.fileStem? relative with
    | none => exact List.not_mem_nil
    | some stem => exact Path.not_mem_fileStem? named
  rw [Name.artifact, Path.withFileName_eq_join, ← Path.join_assoc,
    ← @String.ofList_toList (_ ++ "-rb." ++ extension),
    Path.components_join (isFileName noSlash plain), String.ofList_toList]
  rfl

theorem components_project (output name : String) :
    Path.components (Path.join output (name ++ ("-rb." ++ extension))) =
      (ofProject output name).file extension := by
  rw [Path.append_eq_join name (not_mem_suffix plain), ← Path.join_assoc, ← String.append_assoc,
    ← @String.ofList_toList (_ ++ "-rb." ++ extension),
    Path.components_join (isFileName (Path.not_mem_behindSlash name) plain), String.ofList_toList]
  rfl

end Target

namespace UnitBindings

/-- The extensions of a unit's files. -/
def extensions (unit : UnitBindings) : List String :=
  ["hpp", "cpp"] ++ if unit.hasBuilders then ["ipp"] else []

theorem map_path_unitFiles (unit : UnitBindings) :
    (Code.unitFiles unit).map (·.path) = unit.extensions.map unit.artifact := by
  unfold Code.unitFiles extensions
  cases unit.hasBuilders <;> rfl

theorem extensions_nodup (unit : UnitBindings) : unit.extensions.Nodup := by
  unfold extensions
  cases unit.hasBuilders <;> decide

theorem of_mem_extensions {unit : UnitBindings} {extension : String}
    (member : extension ∈ unit.extensions) :
    extension.length = 3 ∧ '/' ∉ extension.toList := by
  have known : ∀ other ∈ ["hpp", "cpp"] ++ ["ipp"], other.length = 3 ∧ '/' ∉ other.toList := by
    decide
  refine known extension ?_
  unfold extensions at member
  split at member
  · exact member
  · rw [List.append_nil] at member
    exact List.mem_append_left _ member

end UnitBindings

namespace Job

/-- The paths of the files of a project. -/
def paths (job : Job) (project : ProjectBindings) : List String :=
  (Code.allFiles project).map fun file => Path.join job.config.project.output file.path

theorem run_writeFile (job : Job) (file : RenderedFile) (state : RunState) :
    (job.writeFile file).run.run state =
      match state.files.write? (Path.join job.config.project.output file.path) file.contents with
      | none => (.error (.unwritable (Path.join job.config.project.output file.path)), state)
      | some files =>
          (.ok (Path.join job.config.project.output file.path),
            ⟨files, state.calls,
              state.events ++ [.written (Path.join job.config.project.output file.path)]⟩) := by
  unfold writeFile
  rw [Run.run_bind_of_eq_ok (show Run.files.run.run state = (.ok state.files, state) from rfl)]
  cases state.files.write? (Path.join job.config.project.output file.path) file.contents <;> rfl

theorem paths_of_mapM_writeFile (job : Job) {files : List RenderedFile} {written : List String}
    {before after : RunState}
    (run : (files.mapM job.writeFile).run.run before = (.ok written, after)) :
    written = files.map fun file => Path.join job.config.project.output file.path := by
  induction files generalizing before written with
  | nil =>
      rw [List.mapM_nil] at run
      cases run
      rfl
  | cons file later ih =>
      rw [List.mapM_cons] at run
      have writes := job.run_writeFile file before
      split at writes
      · rw [Run.run_bind_of_eq_error writes] at run
        cases run
      · rename_i files _
        rw [Run.run_bind_of_eq_ok writes] at run
        generalize RunState.mk files _ _ = between at run
        cases rest : (later.mapM job.writeFile).run.run between with
        | mk answer last =>
            cases answer with
            | error error =>
                rw [Run.run_bind_of_eq_error rest] at run
                cases run
            | ok others =>
                rw [Run.run_bind_of_eq_ok rest] at run
                cases run
                rw [List.map_cons, ← ih rest]

/-- If all files are written, each is written to its path. -/
theorem written_eq_paths (job : Job) (project : ProjectBindings) {written : List String}
    {before after : RunState} (run : (job.write project).run.run before = (.ok written, after)) :
    written = job.paths project :=
  job.paths_of_mapM_writeFile run

theorem components_paths (job : Job) (project : ProjectBindings) :
    (job.paths project).map Path.components =
      (project.units.map (fun unit =>
          (Target.ofHeader job.config.project.output unit.relativePath, unit.extensions)) ++
        [(Target.ofProject job.config.project.output project.name, ["hpp", "cpp"])]).flatMap
          fun group => group.2.map group.1.file := by
  have places : (job.paths project).map Path.components =
      ((Code.allFiles project).map (·.path)).map fun path =>
        Path.components (Path.join job.config.project.output path) := by
    rw [paths, List.map_map, List.map_map]
    rfl
  rw [places, Code.allFiles, List.map_append, List.map_append, List.map_flatMap, List.map_flatMap,
    List.flatMap_append, List.flatMap_map, List.flatMap_singleton]
  refine congrArg₂ (· ++ ·) ?_ ?_
  · refine List.flatMap_congr fun unit _ => ?_
    rw [unit.map_path_unitFiles, List.map_map]
    exact List.map_congr_left fun extension member =>
      Target.components_artifact (UnitBindings.of_mem_extensions member).2 _ _
  · have suffixed : (Code.projectFiles project).map (·.path) =
        ["hpp", "cpp"].map fun extension => project.name ++ ("-rb." ++ extension) := by
      have literals : "-rb." ++ "hpp" = "-rb.hpp" ∧ "-rb." ++ "cpp" = "-rb.cpp" := by decide
      rw [List.map_cons, List.map_cons, List.map_nil, literals.1, literals.2]
      rfl
    rw [suffixed, List.map_map]
    refine List.map_congr_left fun extension member => ?_
    have plain : ∀ other ∈ ["hpp", "cpp"], '/' ∉ other.toList := by decide
    exact Target.components_project (plain extension member) _ _

/-- The paths of a project differ if and only if its units and its name have different targets. -/
theorem paths_differ_iff (job : Job) (project : ProjectBindings) :
    (job.paths project).Pairwise (fun first second => Path.same first second = false) ↔
      (project.units.map (fun unit =>
          Target.ofHeader job.config.project.output unit.relativePath) ++
        [Target.ofProject job.config.project.output project.name]).Nodup := by
  have places : (job.paths project).Pairwise (fun first second =>
      Path.same first second = false) ↔ ((job.paths project).map Path.components).Nodup := by
    rw [List.Nodup, List.pairwise_map]
    exact List.Pairwise.iff fun first second => beq_eq_false_iff_ne
  rw [places, components_paths, @Target.nodup_files_iff 3, List.map_append, List.map_map]
  · rfl
  · intro group member
    rcases List.mem_append.mp member with ofUnit | ofProject
    · obtain ⟨unit, -, rfl⟩ := List.mem_map.mp ofUnit
      exact ⟨unit.extensions_nodup, List.mem_append_left _ List.mem_cons_self,
        fun extension isOne => (UnitBindings.of_mem_extensions isOne).1⟩
    · obtain rfl := List.mem_singleton.mp ofProject
      have both : ["hpp", "cpp"].Nodup ∧ ∀ extension ∈ ["hpp", "cpp"], extension.length = 3 := by
        decide
      exact ⟨both.1, List.mem_cons_self, both.2⟩

end Job

/-! ## Init functions -/

namespace Name

/-- The words of an init function's name behind `Init`: the components of the path without its
extension.  A path without components gives one empty word. -/
def initWords (relative : String) : List String :=
  match Path.components (Path.withExtension relative "") with
  | [] => [""]
  | components => components.map fun component => camelCase component.text

/-- The name of the init function that is made of some words. -/
def initOf (words : List String) : String :=
  "Init_" ++ "_".intercalate words

/-- Whether a name can be read back to the words that it is made of. -/
def AreReadable (words : List String) : Prop :=
  words ≠ [] ∧ ∀ word ∈ words, '_' ∉ word.toList

theorem areReadable_camelCase {texts : List String} (some : texts ≠ []) :
    AreReadable (texts.map camelCase) := by
  refine ⟨mt List.map_eq_nil_iff.mp some, fun word member => ?_⟩
  obtain ⟨text, -, rfl⟩ := List.mem_map.mp member
  rw [camelCase, String.toList_ofList]
  exact Chars.not_mem_camelCase_of_gap (by decide) (by decide)

theorem areReadable_initWords (relative : String) : AreReadable (initWords relative) := by
  unfold initWords
  split
  · exact ⟨List.cons_ne_nil _ _, by decide⟩
  · rename_i components some
    rw [← Function.comp_def, ← List.map_map]
    exact areReadable_camelCase (mt List.map_eq_nil_iff.mp some)

theorem unitInit_eq (relative : String) : unitInit relative = initOf (initWords relative) := by
  unfold unitInit initWords initOf
  dsimp only
  split
  · rename_i none
    rw [none]
    rfl
  · rfl

theorem projectInit_eq (name : String) : projectInit name = initOf [camelCase name] := by
  rw [projectInit, initOf, String.intercalate_singleton]

theorem initOf_inj {first second : List String} (left : AreReadable first)
    (right : AreReadable second) : initOf first = initOf second ↔ first = second := by
  refine ⟨fun same => ?_, congrArg _⟩
  have joined : ['_'].intercalate (first.map String.toList) =
      ['_'].intercalate (second.map String.toList) := by
    have letters := congrArg String.toList same
    simp only [initOf, String.toList_append, List.append_cancel_left_eq,
      String.toList_intercalate] at letters
    exact letters
  have split : ∀ {words : List String}, AreReadable words →
      (['_'].intercalate (words.map String.toList)).splitOn '_' = words.map String.toList := by
    intro words readable
    refine List.splitOn_intercalate _ ?_ (mt List.map_eq_nil_iff.mp readable.1)
    intro letters member
    obtain ⟨word, inWords, rfl⟩ := List.mem_map.mp member
    exact readable.2 word inWords
  have lists := congrArg (List.splitOn '_') joined
  rw [split left, split right] at lists
  exact List.map_injective_iff.mpr (fun _ _ => String.toList_inj.mp) lists

theorem nodup_initOf_iff {groups : List (List String)}
    (each : ∀ words ∈ groups, AreReadable words) :
    (groups.map initOf).Nodup ↔ groups.Nodup := by
  rw [List.Nodup, List.pairwise_map]
  exact List.Pairwise.iff_of_mem fun {first second} inFirst inSecond =>
    not_congr (initOf_inj (each first inFirst) (each second inSecond))

end Name

namespace Job

/-- The relative paths of the headers that can be parsed. -/
def headers (job : Job) (inputs : List UnitInput) : List String :=
  (inputs.filter job.parses).map (·.relative)

variable {job : Job}

theorem headers_cons_of_ok {input : UnitInput} {unit : SourceUnit}
    (parsed : job.tree? input = .ok unit) (later : List UnitInput) :
    job.headers (input :: later) = input.relative :: job.headers later := by
  rw [headers, List.filter_cons_of_pos (parses_of_ok parsed)]
  rfl

theorem headers_cons_of_error {input : UnitInput} {error : RunError}
    (failed : job.tree? input = .error error) (later : List UnitInput) :
    job.headers (input :: later) = job.headers later := by
  rw [headers, List.filter_cons_of_neg (by simp [parses_of_error failed])]
  rfl

/-- The units are those of the headers that can be parsed, and are named after them. -/
theorem names_of_turns {options : BindOptions} {index : ProjectIndex} {inputs : List UnitInput}
    {turns : List Turn} (run : job.turns options index inputs = .ok turns) :
    (turns.map fun turn => (turn.result.bindings.relativePath, turn.result.bindings.initName)) =
      (job.headers inputs).map fun relative =>
        (relative, Name.initOf (Name.initWords relative)) := by
  induction inputs generalizing index turns with
  | nil =>
      cases run
      rfl
  | cons input later ih =>
      rw [Job.turns] at run
      cases parsed : job.tree? input with
      | error error =>
          rw [parsed] at run
          rw [headers_cons_of_error parsed]
          exact ih run
      | ok unit =>
          rw [parsed] at run
          dsimp only at run
          rw [headers_cons_of_ok parsed]
          cases generated : generateUnit job.depth options index unit input.relative with
          | none =>
              rw [generated] at run
              cases run
          | some result =>
              rw [generated] at run
              dsimp only at run
              obtain ⟨progress, -, bindings⟩ := bindings_of_generateUnit generated
              cases rest : job.turns options result.index later with
              | error error =>
                  rw [rest] at run
                  cases run
              | ok others =>
                  rw [rest] at run
                  cases run
                  rw [List.map_cons, List.map_cons, ih rest, bindings, ← Name.unitInit_eq]
                  rfl

/-- What the project of a run is named after. -/
theorem names_of_generateFrom {inputs : List UnitInput} {before after : RunState}
    {generation : Generation}
    (generated : (job.generateFrom inputs).run.run before = (.ok generation, after)) :
    (generation.project.units.map fun unit => (unit.relativePath, unit.initName)) =
      (job.headers inputs).map (fun relative =>
        (relative, Name.initOf (Name.initWords relative))) ∧
    generation.project.name = job.config.project.name ∧
    generation.project.initName = Name.initOf [Name.camelCase job.config.project.name] := by
  have answer := @run_generateFrom job inputs before
  rw [generated] at answer
  cases read : job.options with
  | error error =>
      rw [read] at answer
      cases answer
  | ok options =>
      rw [read] at answer
      dsimp only [Except.bind] at answer
      cases made : job.turns options .empty inputs with
      | error error =>
          rw [made] at answer
          cases answer
      | ok turns =>
          rw [made] at answer
          cases answer
          refine ⟨?_, rfl, Name.projectInit_eq _⟩
          rw [← names_of_turns made]
          exact List.map_map

/-- The files of a run are written to different paths if and only if the headers that can be parsed
and the project name different directories and stems; and the init functions have different names if
and only if those headers and the project have different words. -/
theorem outputs_differ_iff {inputs : List UnitInput} {before after : RunState}
    {generation : Generation}
    (generated : (job.generateFrom inputs).run.run before = (.ok generation, after)) :
    (∀ {state last : RunState} {written : List String},
      (job.write generation.project).run.run state = (.ok written, last) →
        written = job.paths generation.project) ∧
    ((job.paths generation.project).Pairwise (fun first second =>
        Path.same first second = false) ↔
      ((job.headers inputs).map (Target.ofHeader job.config.project.output) ++
        [Target.ofProject job.config.project.output job.config.project.name]).Nodup) ∧
    ((generation.project.units.map (·.initName) ++ [generation.project.initName]).Nodup ↔
      ((job.headers inputs).map Name.initWords ++
        [[Name.camelCase job.config.project.name]]).Nodup) := by
  obtain ⟨names, named, init⟩ := names_of_generateFrom generated
  have relatives := congrArg (List.map Prod.fst) names
  have inits := congrArg (List.map Prod.snd) names
  simp only [List.map_map, Function.comp_def, List.map_id'] at relatives inits
  refine ⟨written_eq_paths job _, ?_, ?_⟩
  · rw [paths_differ_iff, named, ← relatives, List.map_map]
    rfl
  · have readable : ∀ words ∈ (job.headers inputs).map Name.initWords ++
        [[Name.camelCase job.config.project.name]], Name.AreReadable words := by
      intro words member
      rcases List.mem_append.mp member with ofHeader | ofProject
      · obtain ⟨relative, -, rfl⟩ := List.mem_map.mp ofHeader
        exact Name.areReadable_initWords relative
      · obtain rfl := List.mem_singleton.mp ofProject
        exact Name.areReadable_camelCase (List.cons_ne_nil job.config.project.name [])
    rw [← Name.nodup_initOf_iff readable, inits, init, List.map_append, List.map_map]
    rfl

end Job

/-! ## Headers of one stem -/

/-- A run for headers without declarations. -/
def shapesJob : Job :=
  ⟨⟨⟨"shapes", "/include", "/ext"⟩, ⟨["*.h", "*.hpp"], []⟩, [], ⟨[], [], [], none⟩⟩,
    fun path _ => .ok (.ofHeader path []), 1⟩

/-- A header of the run. -/
def shapesInput (name : String) : UnitInput :=
  ⟨name, "/include/" ++ name⟩

theorem shapesJob_options : shapesJob.options = .ok .plain := by
  have noRules : SymbolFilter.ofRules .empty = ⟨.empty, []⟩ := by decide +kernel
  change Except.ok (BindOptions.mk (SymbolFilter.ofRules .empty) ⟨.empty⟩ [] none) = _
  rw [noRules]
  rfl

theorem shapes_generate (names : List String)
    (bound : (shapesJob.turns .plain .empty (names.map shapesInput)).isOk = true)
    (state : RunState) :
    ∃ generation after, (shapesJob.generateFrom (names.map shapesInput)).run.run state =
      (.ok generation, after) := by
  have answer := @Job.run_generateFrom shapesJob (names.map shapesInput) state
  cases made : shapesJob.turns .plain .empty (names.map shapesInput) with
  | error error =>
      rw [made] at bound
      cases bound
  | ok turns =>
      rw [shapesJob_options, Except.bind, made] at answer
      exact ⟨_, _, Prod.ext answer rfl⟩

/-- A run that begins among no files. -/
def shapesState : RunState :=
  ⟨.empty [], [], []⟩

theorem disk_and_line_differ :
    ∃ generation after,
      (shapesJob.generateFrom (["disk.h", "line.hpp"].map shapesInput)).run.run shapesState =
        (.ok generation, after) ∧
      (shapesJob.paths generation.project).Pairwise (fun first second =>
        Path.same first second = false) ∧
      (generation.project.units.map (·.initName) ++ [generation.project.initName]).Nodup := by
  obtain ⟨generation, after, run⟩ :=
    shapes_generate ["disk.h", "line.hpp"] (by decide +kernel) shapesState
  obtain ⟨-, paths, inits⟩ := Job.outputs_differ_iff run
  exact ⟨generation, after, run, paths.mpr (by decide +kernel), inits.mpr (by decide +kernel)⟩

theorem files_of_one_stem_clash :
    ["disk.h", "disk.hpp"].Nodup ∧ ∃ generation after,
      (shapesJob.generateFrom (["disk.h", "disk.hpp"].map shapesInput)).run.run shapesState =
        (.ok generation, after) ∧
      ¬ (shapesJob.paths generation.project).Pairwise (fun first second =>
        Path.same first second = false) ∧
      ¬ (generation.project.units.map (·.initName) ++ [generation.project.initName]).Nodup := by
  obtain ⟨generation, after, run⟩ :=
    shapes_generate ["disk.h", "disk.hpp"] (by decide +kernel) shapesState
  obtain ⟨names, named, init⟩ := Job.names_of_generateFrom run
  have headers : shapesJob.headers (["disk.h", "disk.hpp"].map shapesInput) =
      ["disk.h", "disk.hpp"] := by decide +kernel
  have relatives := congrArg (List.map Prod.fst) names
  have inits := congrArg (List.map Prod.snd) names
  simp only [headers, List.map_map, Function.comp_def, List.map_id'] at relatives inits
  refine ⟨by decide, generation, after, run, ?_, ?_⟩
  · rw [Job.paths_differ_iff, named, ← Function.comp_def, ← List.map_map, relatives]
    decide +kernel
  · rw [inits, init]
    decide +kernel

end Bindery
