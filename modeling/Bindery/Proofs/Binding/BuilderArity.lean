import Bindery.Proofs.Binding.BuilderCalls

/-!
# Arguments of builder calls

A builder has the parameters of its class template, all of them; the call of a builder has the
arguments that the spelling of an instantiation lists, and no others.  So a call fits if and only if
its instantiation lists an argument for each parameter, the defaulted ones among them.
-/

set_option autoImplicit false
set_option maxRecDepth 100000

namespace Bindery

namespace Turn

/-- Whether a unit can call the builders of another: that is the unit itself, or an earlier one
whose file of builders is included. -/
def Sees (turn : Turn) (earlier : List Turn) (other : Turn) : Prop :=
  other = turn ∨ other ∈ earlier ∧ ∃ path ∈ turn.result.bindings.builderIncludes,
    Path.same other.builderFile.path path = true

/-- Whether a call names a builder. -/
def Names (turn : Turn) (earlier : List Turn) (call : BuilderCall) (builder : Builder) : Prop :=
  builder.name = call.name ∧
    ∃ other, turn.Sees earlier other ∧ builder ∈ other.result.bindings.builders

/-- Whether every call has as many arguments as each builder that it names has parameters. -/
def CallsFit (turn : Turn) (earlier : List Turn) : Prop :=
  ∀ fragment ∈ turn.fragments, ∀ call, fragment.call? = some call →
    ∀ builder, turn.Names earlier call builder →
      call.templateArgs.length = builder.templateParams.length

theorem Resolves.exists_names {turn : Turn} {earlier : List Turn} {call : BuilderCall}
    (resolves : turn.Resolves earlier call) : ∃ builder, turn.Names earlier call builder := by
  obtain ⟨builder, member, named⟩ | ⟨old, present, ⟨builder, member, named⟩, -, included⟩ :=
    resolves
  · exact ⟨builder, named, turn, .inl rfl, member⟩
  · exact ⟨builder, named, old, .inr ⟨present, included⟩, member⟩

end Turn

namespace Chapter

/-- Whether a unit has a builder of the given name for a class template. -/
def BuildsAs (chapter : Chapter) (name : String) (id : DeclId) : Prop :=
  ∃ entry ∈ chapter.entries, entry.id = id ∧ entry.builder.isSome ∧
    Name.builder (chapter.turn.context.tree.qualifiedName id) = name

/-- Whether every instantiation whose template has a builder by then lists an argument for each
parameter of the class templates that builders of that name are for. -/
def ListsEveryArgument (earlier : List Chapter) (chapter : Chapter) : Prop :=
  ∀ before entry behind, chapter.entries = before ++ entry :: behind →
    ∀ fragment template args, ⟨fragment, some (template, args)⟩ ∈ entry.lines →
    HasBuilder earlier chapter before template →
    ∀ other ∈ chapter :: earlier, chapter.turn.Sees (earlier.map (·.turn)) other.turn →
    ∀ id, other.BuildsAs (Name.builder (chapter.turn.context.tree.qualifiedName template)) id →
      args.length = (other.turn.context.tree.templateParameters id).length

/-- A builder stands in the journal of its unit, with the parameters of its class template. -/
theorem ComesAfter.mem_builders_iff {index : ProjectIndex} {earlier : List Chapter}
    {chapter : Chapter} (after : chapter.ComesAfter index earlier) {builder : Builder} :
    builder ∈ chapter.turn.result.bindings.builders ↔
      ∃ entry ∈ chapter.entries, entry.builder = some builder ∧
        builder.name = Name.builder (chapter.turn.context.tree.qualifiedName entry.id) ∧
        builder.templateParams.length =
          (chapter.turn.context.tree.templateParameters entry.id).length := by
  rw [after.journal.builders, List.mem_filterMap]
  refine exists_congr fun entry => and_congr_right fun member => ?_
  refine ⟨fun made => ⟨made, (after.journal.kept.built entry member builder made).1, ?_⟩,
    fun ⟨made, _⟩ => made⟩
  rw [after.declared entry member builder made, List.length_map]

namespace ComesAfter

variable {earlier : List Chapter} {chapter : Chapter} (after : chapter.ComesAfter .empty earlier)
include after

/-- A unit's calls fit exactly if its instantiations list an argument for each parameter. -/
theorem callsFit_iff
    (each : ∀ other ∈ chapter :: earlier, ∃ before, other.ComesAfter .empty before) :
    chapter.turn.CallsFit (earlier.map (·.turn)) ↔ ListsEveryArgument earlier chapter := by
  constructor
  · intro fit before entry behind parts fragment template args member has other present seen id
      built
    obtain ⟨-, carries⟩ | ⟨hasNot, -⟩ := after.call_iff parts member
    · obtain ⟨front, comes⟩ := each other present
      obtain ⟨made, listed, rfl, some, named⟩ := built
      obtain ⟨builder, isBuilder⟩ := Option.isSome_iff_exists.mp some
      have inUnit := comes.journal.kept.built made listed builder isBuilder
      have inBuilders : builder ∈ other.turn.result.bindings.builders := by
        rw [comes.journal.builders]
        exact List.mem_filterMap.mpr ⟨made, listed, isBuilder⟩
      have inFragments : fragment ∈ chapter.turn.fragments := by
        rw [Turn.fragments, after.journal.fragments, parts]
        exact List.mem_flatMap.mpr ⟨entry, by simp, List.mem_map.mpr ⟨_, member, rfl⟩⟩
      have fits := fit fragment inFragments _ carries builder
        ⟨inUnit.1.trans named, other.turn, seen, inBuilders⟩
      rw [fits, comes.declared made listed builder isBuilder, List.length_map]
    · exact absurd has hasNot
  · rintro lists fragment member call carries builder ⟨named, source, seen, inBuilders⟩
    obtain ⟨before, entry, behind, template, args, parts, inLines⟩ :=
      after.exists_line member carries
    obtain ⟨has, known⟩ | ⟨-, missing⟩ := after.call_iff parts inLines
    · obtain rfl := Option.some.inj (carries.symm.trans known)
      have isChapter : ∃ other ∈ chapter :: earlier, other.turn = source := by
        rcases seen with rfl | ⟨present, -⟩
        · exact ⟨chapter, List.mem_cons_self, rfl⟩
        · obtain ⟨other, listed, same⟩ := List.mem_map.mp present
          exact ⟨other, List.mem_cons_of_mem _ listed, same⟩
      obtain ⟨other, present, rfl⟩ := isChapter
      obtain ⟨front, comes⟩ := each other present
      obtain ⟨made, listed, isBuilder, called, size⟩ := comes.mem_builders_iff.mp inBuilders
      rw [size]
      exact lists before entry behind parts fragment template args inLines has other present seen
        made.id ⟨made, listed, rfl, by rw [isBuilder]; rfl, called.symm.trans named⟩
    · rw [carries] at missing
      cases missing

end ComesAfter

end Chapter

/-- Every call names a builder; and the calls of a unit have as many arguments as the builders that
they name have parameters if and only if each instantiation whose template has a builder lists an
argument for each parameter.  Arguments that are left to the defaults of the parameters are
missing. -/
theorem builder_calls_fit_iff {depth : Nat} {options : BindOptions}
    {sources : List (SourceUnit × String)} {turns : List Turn}
    (run : generateUnits depth options .empty sources = some turns) :
    ∃ chapters : List Chapter, chapters.map (·.turn) = turns ∧
      Everywhere (fun earlier chapter _ =>
        chapter.turn.context.IsJournal chapter.turn.result.bindings chapter.entries ∧
        (∀ fragment ∈ chapter.turn.fragments, ∀ call, fragment.call? = some call →
          ∃ builder, chapter.turn.Names (earlier.map (·.turn)) call builder) ∧
        (chapter.turn.CallsFit (earlier.map (·.turn)) ↔
          Chapter.ListsEveryArgument earlier chapter)) chapters := by
  obtain ⟨chapters, same, follow⟩ := exists_chapters run
  refine ⟨chapters, same, fun earlier chapter later parts => ?_⟩
  have after := follow earlier chapter later parts
  have each : ∀ other ∈ chapter :: earlier, ∃ before, other.ComesAfter .empty before := by
    intro other member
    have listed : other ∈ chapters := by
      rw [parts]
      rcases List.mem_cons.mp member with rfl | before <;> simp_all
    obtain ⟨before, behind, split⟩ := List.append_of_mem listed
    exact ⟨before, follow before other behind split⟩
  have offered : ∀ old ∈ earlier, ∀ {template}, old.Builds template →
      old.turn.Offers (Name.builder template) := by
    intro old member template builds
    obtain ⟨before, comes⟩ := each old (List.mem_cons_of_mem _ member)
    exact comes.offers builds
  exact ⟨after.journal,
    fun fragment member call carries => (after.resolves offered member carries).exists_names,
    after.callsFit_iff each⟩

theorem box_calls_fit :
    ∃ turns, generateUnits 1 .plain .empty boxSources = some turns ∧
      ∃ chapters : List Chapter, chapters.map (·.turn) = turns ∧
        Everywhere (fun earlier chapter _ =>
          chapter.turn.CallsFit (earlier.map (·.turn)) ∧
            Chapter.ListsEveryArgument earlier chapter) chapters := by
  have made : (generateUnits 1 .plain .empty boxSources).map (fun turns => decide
      (∀ turn ∈ turns,
        (∀ fragment ∈ turn.fragments, ∀ call ∈ fragment.call?, call.templateArgs.length = 1) ∧
        ∀ builder ∈ turn.result.bindings.builders, builder.templateParams.length = 1)) =
      some true := by
    decide +kernel
  obtain ⟨turns, run, decided⟩ := Option.map_eq_some_iff.mp made
  have single := of_decide_eq_true decided
  obtain ⟨chapters, rfl, follow⟩ := builder_calls_fit_iff run
  refine ⟨_, run, chapters, rfl, fun earlier chapter later parts => ?_⟩
  obtain ⟨-, -, fitIff⟩ := follow earlier chapter later parts
  have fit : chapter.turn.CallsFit (earlier.map (·.turn)) := by
    rintro fragment member call carries builder ⟨-, other, seen, inBuilders⟩
    have listed : ∀ turn, turn = chapter.turn ∨ turn ∈ earlier.map (·.turn) →
        turn ∈ chapters.map (·.turn) := by
      rw [parts]
      rintro turn (rfl | before) <;> simp_all
    have one := (single chapter.turn (listed _ (.inl rfl))).1 fragment member call carries
    rw [one, (single other (listed _ (seen.imp_right And.left))).2 builder inBuilders]
  exact ⟨fit, fitIff.mp fit⟩

/-- A class template with two parameters and a typedef for an instantiation that is written with one
argument. -/
def defaultedSources : List (SourceUnit × String) :=
  [(.ofHeader "/src/unit.hpp"
      [.classTemplate 0 "Pair" ["First", "Second"], .specialization 1 "int, int",
       .recordAs 4 "Pair<int>", .newTypedef .typedefDecl 0 "IntPair" 1], "unit.hpp")]

theorem defaulted_argument_is_missing :
    ∃ turns, generateUnits 1 .plain .empty defaultedSources = some turns ∧
      ∃ turn ∈ turns, ¬ turn.CallsFit [] := by
  have made : (generateUnits 1 .plain .empty defaultedSources).map (fun turns => decide
      (∃ turn ∈ turns,
        .instantiation "rb_cIntPair" "IntPair" "Pair<int>" none .global
          (some ⟨"Pair_builder", ["int"]⟩) ∈ turn.fragments ∧
        ∃ builder ∈ turn.result.bindings.builders, builder.name = "Pair_builder" ∧
          builder.templateParams = ["typename First", "typename Second"])) = some true := by
    decide +kernel
  obtain ⟨turns, run, decided⟩ := Option.map_eq_some_iff.mp made
  obtain ⟨turn, member, inFragments, builder, inBuilders, named, params⟩ :=
    of_decide_eq_true decided
  refine ⟨turns, run, turn, member, fun fit => ?_⟩
  have fits := fit _ inFragments _ rfl builder ⟨named, turn, .inl rfl, inBuilders⟩
  rw [params] at fits
  exact absurd fits (by decide)

end Bindery
