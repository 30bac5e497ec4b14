import Bindery.Proofs.Binding.Entries
import Bindery.Proofs.Binding.Sequence
import Bindery.Render.Unit

/-!
# Calls of builders

The journals of the units of a run tell where the builders of class templates are.  An instantiation
calls the builder of its template if an earlier unit has one, or if its own unit has made one by
then; so each call leads to a builder, and a call is missing where an instantiation comes ahead of
the only builder.
-/

set_option autoImplicit false
set_option maxRecDepth 100000

namespace Bindery

namespace ProjectIndex

theorem builder?_recordBuilder (index : ProjectIndex) (template other : String)
    (location : BuilderLocation) :
    (index.recordBuilder template location).builder? other =
      (index.builder? other).or ([(template, location)].lookup other) := by
  unfold recordBuilder
  split
  case isTrue known =>
    by_cases same : other = template
    · subst same
      rw [Option.or_of_isSome known]
    · simp [List.lookup_cons, beq_eq_false_iff_ne.mpr same]
  case isFalse => exact List.lookup_append

theorem builder?_recordClasses (entries : List (String × String)) (index : ProjectIndex)
    (template : String) :
    (entries.foldl (fun index entry => index.recordClass entry.1 entry.2) index).builder?
      template = index.builder? template := by
  induction entries generalizing index with
  | nil => rfl
  | cons entry rest ih =>
      rw [List.foldl_cons, ih]
      unfold recordClass
      split <;> rfl

theorem builder?_recordUnit (index : ProjectIndex) (state : UnitState) (ippPath template : String) :
    (index.recordUnit state ippPath).builder? template =
      (index.builder? template).or
        ((state.localBuilders.lookup template).map fun name => ⟨name, ippPath⟩) := by
  unfold recordUnit
  dsimp only
  rw [← builder?_recordClasses state.classes index template]
  generalize state.classes.foldl _ index = recorded
  induction state.localBuilders generalizing recorded with
  | nil => simp
  | cons entry rest ih =>
      rw [List.foldl_cons, ih, builder?_recordBuilder, Option.or_assoc]
      congr 1
      obtain ⟨name, builder⟩ := entry
      cases same : template == name <;> simp [List.lookup_cons, same]

end ProjectIndex

namespace Fragment

/-- The call of a builder that an instantiation carries. -/
def call? : Fragment → Option BuilderCall
  | instantiation _ _ _ _ _ builder => builder
  | _ => none

end Fragment

/-- A unit of a run with its journal. -/
structure Chapter where
  turn : Turn
  entries : List Entry

namespace Chapter

/-- Whether a unit has a builder for the template of the given name. -/
def Builds (chapter : Chapter) (template : String) : Prop :=
  template ∈ chapter.turn.context.builtBy chapter.entries

/-- Where a unit has the builder of a template. -/
def location? (chapter : Chapter) (template : String) : Option BuilderLocation :=
  if template ∈ chapter.turn.context.builtBy chapter.entries then
    some ⟨Name.builder template, chapter.turn.result.bindings.artifact "ipp"⟩
  else
    none

/-- A unit is traversed with the index that some units leave, given the one before them, and its
entries are its journal. -/
structure ComesAfter (index : ProjectIndex) (earlier : List Chapter) (chapter : Chapter) : Prop
    where
  journal : chapter.turn.context.IsJournal chapter.turn.result.bindings chapter.entries
  declared : chapter.turn.context.AreDeclared chapter.entries
  known : ∀ template, chapter.turn.context.index.builder? template =
    (index.builder? template).or (earlier.findSome? (·.location? template))

end Chapter

theorem chapter_of_generateUnit {depth : Nat} {options : BindOptions} {index : ProjectIndex}
    {unit : SourceUnit} {relative : String} {result : UnitResult}
    (run : generateUnit depth options index unit relative = some result) :
    ∃ entries,
      Chapter.ComesAfter index []
        ⟨⟨.ofUnit depth unit options index relative, result⟩, entries⟩ ∧
      ∀ template, result.index.builder? template = (index.builder? template).or
        (Chapter.location? ⟨⟨.ofUnit depth unit options index relative, result⟩, entries⟩
          template) := by
  obtain ⟨⟨fragments, progress⟩, visitRun, rest⟩ := Option.bind_eq_some_iff.mp run
  cases Option.some.inj rest
  obtain ⟨entries, journal, knows, declared⟩ := UnitContext.journal_of_visitUnit visitRun
  refine ⟨entries, ⟨journal, declared, fun template => (Option.or_none).symm⟩, fun template => ?_⟩
  rw [ProjectIndex.builder?_recordUnit, knows]
  unfold Chapter.location?
  dsimp only
  split <;> rfl

theorem exists_chapters {depth : Nat} {options : BindOptions} {index : ProjectIndex}
    {sources : List (SourceUnit × String)} {turns : List Turn}
    (run : generateUnits depth options index sources = some turns) :
    ∃ chapters : List Chapter, chapters.map (·.turn) = turns ∧
      Everywhere (fun earlier chapter _ => chapter.ComesAfter index earlier) chapters := by
  induction sources generalizing index turns with
  | nil =>
      cases Option.some.inj run
      exact ⟨[], rfl, .nil⟩
  | cons source later ih =>
      obtain ⟨unit, relative⟩ := source
      obtain ⟨result, rest, unitRun, laterRun, rfl⟩ := generateUnits_cons run
      obtain ⟨entries, first, learns⟩ := chapter_of_generateUnit unitRun
      obtain ⟨chapters, rfl, follow⟩ := ih laterRun
      let chapter : Chapter := ⟨⟨.ofUnit depth unit options index relative, result⟩, entries⟩
      refine ⟨chapter :: chapters, rfl, ?_⟩
      rw [← List.singleton_append]
      refine .append (.singleton first) ?_
      intro earlier other behind parts
      obtain ⟨journal, declared, known⟩ := follow earlier other behind parts
      refine ⟨journal, declared, fun template => ?_⟩
      rw [known, learns, Option.or_assoc, List.singleton_append, List.findSome?_cons]
      cases chapter.location? template <;> rfl

namespace Chapter

theorem builds_iff {chapter : Chapter} {template : String} :
    chapter.Builds template ↔ ∃ builder, ∃ entry ∈ chapter.entries, entry.builder = some builder ∧
      chapter.turn.context.tree.qualifiedName entry.id = template := by
  unfold Builds
  rw [UnitContext.mem_builtBy]
  constructor
  · rintro ⟨entry, member, built, named⟩
    obtain ⟨builder, made⟩ := Option.isSome_iff_exists.mp built
    exact ⟨builder, entry, member, made, named⟩
  · rintro ⟨builder, entry, member, made, named⟩
    exact ⟨entry, member, by rw [made]; rfl, named⟩

theorem location?_eq_some {chapter : Chapter} {template : String} {location : BuilderLocation}
    (found : chapter.location? template = some location) :
    chapter.Builds template ∧
      location = ⟨Name.builder template, chapter.turn.result.bindings.artifact "ipp"⟩ := by
  unfold location? at found
  split at found
  case isTrue builds => exact ⟨builds, (Option.some.inj found).symm⟩
  case isFalse => cases found

theorem location?_eq_none {chapter : Chapter} {template : String}
    (unfound : chapter.location? template = none) : ¬ chapter.Builds template := by
  unfold location? at unfound
  split at unfound
  case isTrue => cases unfound
  case isFalse absent => exact absent

/-- Whether the template of the given name has a builder by the time of an entry: one of an earlier
unit, or one that an entry before has made. -/
def HasBuilder (earlier : List Chapter) (chapter : Chapter) (before : List Entry)
    (template : DeclId) : Prop :=
  (∃ old ∈ earlier, old.Builds (chapter.turn.context.tree.qualifiedName template)) ∨
    chapter.turn.context.tree.qualifiedName template ∈ chapter.turn.context.builtBy before

namespace ComesAfter

variable {earlier : List Chapter} {chapter : Chapter} (after : chapter.ComesAfter .empty earlier)
include after

theorem of_builder?_eq_some {template : String} {location : BuilderLocation}
    (found : chapter.turn.context.index.builder? template = some location) :
    ∃ old ∈ earlier, old.Builds template ∧
      location = ⟨Name.builder template, old.turn.result.bindings.artifact "ipp"⟩ := by
  rw [after.known] at found
  obtain ⟨old, member, located⟩ := List.exists_of_findSome?_eq_some found
  exact ⟨old, member, location?_eq_some located⟩

theorem of_builder?_eq_none {template : String}
    (unfound : chapter.turn.context.index.builder? template = none) :
    ∀ old ∈ earlier, ¬ old.Builds template := by
  rw [after.known] at unfound
  intro old member
  exact location?_eq_none (List.findSome?_eq_none_iff.mp unfound old member)

/-- An instantiation carries the call of the builder of its template if there is one by then. -/
theorem call_iff {before behind : List Entry} {entry : Entry} {fragment : Fragment}
    {template : DeclId} {args : List String}
    (parts : chapter.entries = before ++ entry :: behind)
    (member : ⟨fragment, some (template, args)⟩ ∈ entry.lines) :
    (HasBuilder earlier chapter before template ∧ fragment.call? =
        some ⟨Name.builder (chapter.turn.context.tree.qualifiedName template), args⟩) ∨
      (¬ HasBuilder earlier chapter before template ∧ fragment.call? = none) := by
  cases after.journal.kept.written before entry behind parts _ member with
  | instantiation spells calls =>
      cases calls with
      | own known => exact .inl ⟨.inr known, rfl⟩
      | borrowed unknown found =>
          obtain ⟨old, present, builds, rfl⟩ := after.of_builder?_eq_some found
          exact .inl ⟨.inl ⟨old, present, builds⟩, rfl⟩
      | missing unknown unfound =>
          refine .inr ⟨?_, rfl⟩
          rintro (⟨old, present, builds⟩ | known)
          · exact after.of_builder?_eq_none unfound old present builds
          · exact unknown known

end ComesAfter

end Chapter

/-! ## Calls lead to builders -/

namespace Turn

/-- Whether a unit has a builder of the given name. -/
def Offers (turn : Turn) (name : String) : Prop :=
  ∃ builder ∈ turn.result.bindings.builders, builder.name = name

/-- The file with the builders of a unit. -/
def builderFile (turn : Turn) : RenderedFile :=
  ⟨turn.result.bindings.artifact "ipp", Code.unitBuilders turn.result.bindings⟩

theorem Offers.builderFile_mem {turn : Turn} {name : String} (offers : turn.Offers name) :
    turn.builderFile ∈ Code.unitFiles turn.result.bindings := by
  obtain ⟨builder, member, -⟩ := offers
  have some : turn.result.bindings.hasBuilders = true := by
    unfold UnitBindings.hasBuilders
    rw [List.isEmpty_eq_false_iff.mpr (List.ne_nil_of_mem member)]
    rfl
  unfold Code.unitFiles
  rw [if_pos some]
  exact List.mem_append_right _ (List.mem_singleton_self _)

/-- Whether the call of a builder leads somewhere: to a builder of the unit, or to one of an earlier
unit whose file is rendered and included. -/
def Resolves (turn : Turn) (earlier : List Turn) (call : BuilderCall) : Prop :=
  turn.Offers call.name ∨
    ∃ old ∈ earlier, old.Offers call.name ∧
      old.builderFile ∈ Code.unitFiles old.result.bindings ∧
      ∃ path ∈ turn.result.bindings.builderIncludes,
        Path.same old.builderFile.path path = true

end Turn

namespace Chapter.ComesAfter

variable {earlier : List Chapter} {chapter : Chapter} (after : chapter.ComesAfter .empty earlier)
  (each : ∀ old ∈ earlier, ∀ {template}, old.Builds template →
    old.turn.Offers (Name.builder template))
include after

theorem offers {template : String} (builds : chapter.Builds template) :
    chapter.turn.Offers (Name.builder template) := by
  obtain ⟨builder, entry, member, made, rfl⟩ := builds_iff.mp builds
  refine ⟨builder, ?_, (after.journal.kept.built entry member builder made).1⟩
  rw [after.journal.builders]
  exact List.mem_filterMap.mpr ⟨entry, member, made⟩

/-- A fragment that carries a call is an instantiation, written down in an entry. -/
theorem exists_line {fragment : Fragment} (member : fragment ∈ chapter.turn.fragments)
    {call : BuilderCall} (carries : fragment.call? = some call) :
    ∃ before entry behind template args, chapter.entries = before ++ entry :: behind ∧
      ⟨fragment, some (template, args)⟩ ∈ entry.lines := by
  rw [Turn.fragments, after.journal.fragments] at member
  obtain ⟨entry, listed, inEntry⟩ := List.mem_flatMap.mp member
  obtain ⟨line, inLines, rfl⟩ := List.mem_map.mp inEntry
  obtain ⟨before, behind, parts⟩ := List.append_of_mem listed
  cases after.journal.kept.written before entry behind parts line inLines with
  | class_ => cases carries
  | @other fragment plain =>
      cases fragment with
      | instantiation => exact absurd trivial plain
      | _ => cases carries
  | instantiation => exact ⟨before, entry, behind, _, _, parts, inLines⟩

include each

theorem resolves {fragment : Fragment} (member : fragment ∈ chapter.turn.fragments)
    {call : BuilderCall} (carries : fragment.call? = some call) :
    chapter.turn.Resolves (earlier.map (·.turn)) call := by
  obtain ⟨before, entry, behind, template, args, parts, inLines⟩ := after.exists_line member carries
  cases after.journal.kept.written before entry behind parts _ inLines with
  | instantiation spells calls =>
      cases calls with
      | missing => cases carries
      | own known =>
          obtain rfl := Option.some.inj carries
          refine .inl (after.offers ?_)
          rw [Builds, parts, UnitContext.builtBy_append]
          exact List.mem_append_left _ known
      | borrowed unknown found included =>
          obtain rfl := Option.some.inj carries
          obtain ⟨old, present, builds, rfl⟩ := after.of_builder?_eq_some found
          have offers := each old present builds
          exact .inr
            ⟨old.turn, List.mem_map_of_mem present, offers, offers.builderFile_mem, included⟩

/-- A file of builders is included for the sake of a call. -/
theorem exists_call {path : String}
    (included : path ∈ chapter.turn.result.bindings.builderIncludes) :
    ∃ fragment ∈ chapter.turn.fragments, ∃ call, fragment.call? = some call ∧
      ∃ old ∈ earlier.map (·.turn), old.builderFile.path = path ∧ old.Offers call.name := by
  obtain ⟨before, entry, behind, parts, line, inLines, made, isMade, unknown, location, found,
    rfl⟩ := after.journal.kept.needed path included
  obtain ⟨old, present, builds, rfl⟩ := after.of_builder?_eq_some found
  have member : line.fragment ∈ chapter.turn.fragments := by
    rw [Turn.fragments, after.journal.fragments, parts]
    exact List.mem_flatMap.mpr ⟨entry, by simp, List.mem_map_of_mem inLines⟩
  refine ⟨line.fragment, member, ?_⟩
  cases after.journal.kept.written before entry behind parts line inLines with
  | class_ => cases isMade
  | other => cases isMade
  | instantiation spells calls =>
      cases isMade
      cases calls with
      | own known => exact absurd known unknown
      | missing _ unfound => exact nomatch found.symm.trans unfound
      | borrowed _ again =>
          obtain rfl := Option.some.inj (found.symm.trans again)
          exact ⟨_, rfl, old.turn, List.mem_map_of_mem present, rfl, each old present builds⟩

end Chapter.ComesAfter

/-- Every call of a builder leads to a builder of the same unit or to one of an earlier unit whose
file is rendered and included; and no file of builders is included for nothing. -/
theorem every_builder_call_resolves {depth : Nat} {options : BindOptions}
    {sources : List (SourceUnit × String)} {turns : List Turn}
    (run : generateUnits depth options .empty sources = some turns) :
    ∀ earlier turn later, turns = earlier ++ turn :: later →
      (∀ fragment ∈ turn.fragments, ∀ call, fragment.call? = some call →
        turn.Resolves earlier call) ∧
      ∀ path ∈ turn.result.bindings.builderIncludes,
        ∃ fragment ∈ turn.fragments, ∃ call, fragment.call? = some call ∧
          ∃ old ∈ earlier, old.builderFile.path = path ∧ old.Offers call.name := by
  obtain ⟨chapters, rfl, follow⟩ := exists_chapters run
  intro earlier turn later parts
  obtain ⟨front, rest, rfl, rfl, same⟩ := List.map_eq_append_iff.mp parts
  obtain ⟨chapter, behind, rfl, rfl, rfl⟩ := List.map_eq_cons_iff.mp same
  have each : ∀ old ∈ front, ∀ {template}, old.Builds template →
      old.turn.Offers (Name.builder template) := by
    intro old member template builds
    obtain ⟨before, between, rfl⟩ := List.append_of_mem member
    exact (follow before old (between ++ chapter :: behind) (by simp)).offers builds
  have after := follow front chapter behind rfl
  exact ⟨fun fragment member call carries => after.resolves each member carries,
    fun path included => after.exists_call each included⟩

/-- A header with a class template and a typedef for an instantiation, and a header that includes it
and has a typedef for another one. -/
def boxSources : List (SourceUnit × String) :=
  [(.ofHeader "/src/a.hpp"
      [.classTemplate 0 "Box" ["T"], .builtin "void", .function .method 1 "clear" 0,
       .specialization 1 "int", .named 4, .newTypedef .typedefDecl 0 "IntBox" 1], "a.hpp"),
   (.ofHeader "/src/b.hpp"
      [.inFile "/src/a.hpp", .classTemplate 0 "Box" ["T"], .builtin "void",
       .function .method 1 "clear" 0, .inUnit, .specialization 1 "float", .named 4,
       .newTypedef .typedefDecl 0 "FloatBox" 1], "b.hpp")]

theorem box_calls_resolve :
    ∃ turns, generateUnits 1 .plain .empty boxSources = some turns ∧
      turns.map (fun turn => (turn.fragments.filterMap Fragment.call?,
        turn.result.bindings.builderIncludes)) =
          [([⟨"Box_builder", ["int"]⟩], []), ([⟨"Box_builder", ["float"]⟩], ["a-rb.ipp"])] ∧
      ∀ earlier turn later, turns = earlier ++ turn :: later →
        ∀ fragment ∈ turn.fragments, ∀ call, fragment.call? = some call →
          turn.Resolves earlier call := by
  have made : (generateUnits 1 .plain .empty boxSources).map (fun turns =>
      turns.map fun turn => (turn.fragments.filterMap Fragment.call?,
        turn.result.bindings.builderIncludes)) =
      some [([⟨"Box_builder", ["int"]⟩], []), ([⟨"Box_builder", ["float"]⟩], ["a-rb.ipp"])] := by
    decide +kernel
  obtain ⟨turns, run, calls⟩ := Option.map_eq_some_iff.mp made
  exact ⟨turns, run, calls, fun earlier turn later parts =>
    (every_builder_call_resolves run earlier turn later parts).1⟩

/-! ## Instantiations keep their members -/

namespace Chapter

/-- Whether every instantiation of a template that this unit or an earlier one has a builder for
carries its call. -/
def KeepsMembers (earlier : List Chapter) (chapter : Chapter) : Prop :=
  ∀ entry ∈ chapter.entries, ∀ fragment template args,
    ⟨fragment, some (template, args)⟩ ∈ entry.lines →
    (chapter.Builds (chapter.turn.context.tree.qualifiedName template) ∨
      ∃ old ∈ earlier, old.Builds (chapter.turn.context.tree.qualifiedName template)) →
    fragment.call? =
      some ⟨Name.builder (chapter.turn.context.tree.qualifiedName template), args⟩

/-- Whether no instantiation comes ahead of all builders of its template if its own unit makes
one. -/
def IsInOrder (earlier : List Chapter) (chapter : Chapter) : Prop :=
  ∀ before entry behind, chapter.entries = before ++ entry :: behind →
    ∀ fragment template args, ⟨fragment, some (template, args)⟩ ∈ entry.lines →
    chapter.Builds (chapter.turn.context.tree.qualifiedName template) →
    HasBuilder earlier chapter before template

theorem ComesAfter.keepsMembers_iff {earlier : List Chapter} {chapter : Chapter}
    (after : chapter.ComesAfter .empty earlier) :
    KeepsMembers earlier chapter ↔ IsInOrder earlier chapter := by
  constructor
  · intro keeps before entry behind parts fragment template args member builds
    have carries := keeps entry (by simp [parts]) fragment template args member (.inl builds)
    obtain ⟨has, -⟩ | ⟨-, missing⟩ := after.call_iff parts member
    · exact has
    · exact nomatch carries.symm.trans missing
  · intro inOrder entry listed fragment template args member offered
    obtain ⟨before, behind, parts⟩ := List.append_of_mem listed
    have has : HasBuilder earlier chapter before template :=
      offered.elim (inOrder before entry behind parts fragment template args member) .inl
    obtain ⟨-, carries⟩ | ⟨hasNot, -⟩ := after.call_iff parts member
    · exact carries
    · exact absurd has hasNot

end Chapter

/-- An instantiation carries the call of the builder of its template exactly if an earlier unit has
one or its own unit has made one by then.  So all instantiations in a unit keep their members if and
only if none of them comes ahead of all builders of its template. -/
theorem instantiations_keep_their_members_iff {depth : Nat} {options : BindOptions}
    {sources : List (SourceUnit × String)} {turns : List Turn}
    (run : generateUnits depth options .empty sources = some turns) :
    ∃ chapters : List Chapter, chapters.map (·.turn) = turns ∧
      Everywhere (fun earlier chapter _ =>
        chapter.turn.context.IsJournal chapter.turn.result.bindings chapter.entries ∧
        (∀ before entry behind, chapter.entries = before ++ entry :: behind →
          ∀ fragment template args, ⟨fragment, some (template, args)⟩ ∈ entry.lines →
          (Chapter.HasBuilder earlier chapter before template ∧ fragment.call? =
              some ⟨Name.builder (chapter.turn.context.tree.qualifiedName template), args⟩) ∨
            (¬ Chapter.HasBuilder earlier chapter before template ∧ fragment.call? = none)) ∧
        (Chapter.KeepsMembers earlier chapter ↔ Chapter.IsInOrder earlier chapter)) chapters := by
  obtain ⟨chapters, same, follow⟩ := exists_chapters run
  refine ⟨chapters, same, follow.imp fun earlier chapter _ _ after => ?_⟩
  exact ⟨after.journal, fun _ _ _ parts _ _ _ member => after.call_iff parts member,
    after.keepsMembers_iff⟩

theorem boxes_keep_their_members :
    ∃ turns, generateUnits 1 .plain .empty boxSources = some turns ∧
      ∃ chapters : List Chapter, chapters.map (·.turn) = turns ∧
        Everywhere (fun earlier chapter _ => Chapter.KeepsMembers earlier chapter ∧
          Chapter.IsInOrder earlier chapter) chapters := by
  have made : (generateUnits 1 .plain .empty boxSources).map (fun turns => decide
      (∀ turn ∈ turns, ∀ fragment ∈ turn.fragments, fragment.call?.isSome)) = some true := by
    decide +kernel
  obtain ⟨turns, run, decided⟩ := Option.map_eq_some_iff.mp made
  have carries := of_decide_eq_true decided
  obtain ⟨chapters, rfl, follow⟩ := instantiations_keep_their_members_iff run
  refine ⟨_, run, chapters, rfl, follow.imp fun earlier chapter _ member known => ?_⟩
  obtain ⟨journal, calls, keepsIff⟩ := known
  have keeps : Chapter.KeepsMembers earlier chapter := by
    intro entry listed fragment template args inEntry _
    obtain ⟨before, behind, parts⟩ := List.append_of_mem listed
    obtain ⟨-, carried⟩ | ⟨-, missing⟩ := calls before entry behind parts fragment _ _ inEntry
    · exact carried
    · have present : fragment ∈ chapter.turn.fragments := by
        rw [Turn.fragments, journal.fragments]
        exact List.mem_flatMap.mpr ⟨entry, listed, List.mem_map.mpr ⟨_, inEntry, rfl⟩⟩
      have some := carries chapter.turn (List.mem_map_of_mem member) fragment present
      rw [missing] at some
      cases some
  exact ⟨keeps, keepsIff.mp keeps⟩

/-- A class with a nested class template and a method that takes an instantiation of it. -/
def nestedSources : List (SourceUnit × String) :=
  [(.ofHeader "/src/unit.hpp"
      [.add 0 .classDecl "Outer", .classTemplate 1 "Inner" ["T"], .builtin "void",
       .function .method 2 "clear" 0, .specialization 2 "int", .named 5,
       .function .method 1 "take" 0, .param 6 "inner" 1], "unit.hpp")]

/-- The instantiation is made for a member of the class, before the traversal comes to the nested
template, and has no members although the unit has the builder. -/
theorem nested_instantiation_loses_its_members :
    ∃ turns, generateUnits 1 .plain .empty nestedSources = some turns ∧
      ∃ turn ∈ turns,
        turn.context.unnamedInstantiation? 1 = some (2, "Outer::Inner<int>", ["int"]) ∧
        turn.result.bindings.builders.map (·.name) =
          [Name.builder (turn.context.tree.qualifiedName 2)] ∧
        .instantiation "rb_cOuterInnerInt" "InnerInt" "Outer::Inner<int>" none
          (.class_ "rb_cOuter") none ∈ turn.fragments := by
  have lost : (generateUnits 1 .plain .empty nestedSources).map (fun turns => decide
      (∃ turn ∈ turns,
        turn.context.unnamedInstantiation? 1 = some (2, "Outer::Inner<int>", ["int"]) ∧
        turn.result.bindings.builders.map (·.name) =
          [Name.builder (turn.context.tree.qualifiedName 2)] ∧
        .instantiation "rb_cOuterInnerInt" "InnerInt" "Outer::Inner<int>" none
          (.class_ "rb_cOuter") none ∈ turn.fragments)) = some true := by
    decide +kernel
  obtain ⟨turns, run, decided⟩ := Option.map_eq_some_iff.mp lost
  exact ⟨turns, run, of_decide_eq_true decided⟩

end Bindery
