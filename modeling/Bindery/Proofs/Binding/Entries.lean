import Bindery.Proofs.Binding.Journal
import Bindery.Proofs.Binding.Position
import Bindery.Proofs.Binding.Traversal

/-!
# The journal of a unit

Each visit of a declaration is an entry: the lines that it adds and the builder that it makes, if
any.  The entries stand in the order of the traversal.  Read one after the other they give the
fragments and the builders of the unit, and each line is written with the builders of the entries
before its own.
-/

set_option autoImplicit false

namespace Bindery

structure Entry where
  id : DeclId
  lines : List Line
  builder : Option Builder

def Entry.fragments (entry : Entry) : List Fragment :=
  entry.lines.map (·.fragment)

/-! ## Names of templates with builders -/

theorem lookup_map_replace {α : Type} (key : String) (value : α) (entries : List (String × α))
    (other : String) :
    (entries.map fun entry => if entry.1 = key then (key, value) else entry).lookup other =
      if other = key then (entries.lookup key).map fun _ => value else entries.lookup other := by
  induction entries with
  | nil => simp
  | cons entry rest ih =>
      obtain ⟨name, old⟩ := entry
      rw [List.map_cons, List.lookup_cons, List.lookup_cons]
      by_cases here : name = key
      · subst here
        by_cases asked : other = name
        · simp [asked]
        · have differs : (other == name) = false := beq_eq_false_iff_ne.mpr asked
          simp [List.lookup_cons, asked, differs, ih]
      · have elsewhere : (key == name) = false := beq_eq_false_iff_ne.mpr (Ne.symm here)
        rw [if_neg here]
        by_cases asked : other = key
        · subst asked
          simp [elsewhere, ih]
        · cases found : other == name <;> simp [List.lookup_cons, asked, found, ih]

theorem lookup_assign {α : Type} (key : String) (value : α) (entries : List (String × α))
    (other : String) :
    (assign key value entries).lookup other =
      if other = key then some value else entries.lookup other := by
  unfold assign
  split
  case isTrue present =>
    obtain ⟨old, found⟩ := Option.isSome_iff_exists.mp present
    rw [lookup_map_replace, found]
    rfl
  case isFalse absent =>
    rw [List.lookup_append]
    by_cases asked : other = key
    · subst asked
      rw [Option.not_isSome_iff_eq_none.mp absent]
      simp
    · have differs : (other == key) = false := beq_eq_false_iff_ne.mpr asked
      simp [asked, List.lookup_cons, differs]

namespace UnitContext

/-- The names of the templates that entries have builders for. -/
def builtBy (context : UnitContext) (entries : List Entry) : List String :=
  (entries.filter (·.builder.isSome)).map fun entry => context.tree.qualifiedName entry.id

theorem mem_builtBy {context : UnitContext} {entries : List Entry} {template : String} :
    template ∈ context.builtBy entries ↔ ∃ entry ∈ entries, entry.builder.isSome ∧
      context.tree.qualifiedName entry.id = template := by
  simp [builtBy, and_assoc]

theorem builtBy_append (context : UnitContext) (left right : List Entry) :
    context.builtBy (left ++ right) = context.builtBy left ++ context.builtBy right := by
  simp [builtBy]

/-- What the traversal comes to from a declaration on, in order, down to a depth. -/
def visitOrderTo (context : UnitContext) : Nat → DeclId → List DeclId
  | 0, _ => []
  | depth + 1, id =>
      let inside (ids : List DeclId) : List DeclId :=
        (ids.filter context.accepts).flatMap (context.visitOrderTo depth)
      match (context.tree.decl id).kind with
      | .namespaceDecl | .linkageSpec => id :: inside (context.tree.children id)
      | .classDecl | .structDecl => id :: inside (nestedDeclarations context.tree id)
      | _ => [id]

/-- The declarations of a unit in the order in which the traversal comes to them. -/
def visitOrder (context : UnitContext) : List DeclId :=
  ((context.tree.children DeclTree.root).filter context.accepts).flatMap
    (context.visitOrderTo context.tree.size)

/-- Whether a builder is there for the instantiations of a class template. -/
def IsBuilderFor (context : UnitContext) (template : DeclId) (builder : Builder) : Prop :=
  builder.name = Name.builder (context.tree.qualifiedName template) ∧
    builder.cppType = context.tree.qualifiedDisplayName template

/-- How entries are kept in a unit that includes files of builders: each line is written with what
was there before its entry, and each file is one that a line needs. -/
structure AreKept (context : UnitContext) (includes : List String) (entries : List Entry) : Prop
    where
  built : ∀ entry ∈ entries, ∀ builder ∈ entry.builder, context.IsBuilderFor entry.id builder
  written : Everywhere (fun earlier entry _ => ∀ line ∈ entry.lines,
    context.IsWritten (context.builtBy earlier) includes line) entries
  needed : ∀ path ∈ includes, ∃ earlier entry later, entries = earlier ++ entry :: later ∧
    ∃ line ∈ entry.lines, ∃ made ∈ line.made, context.Needs (context.builtBy earlier) made.1 path

/-- A visit comes to its end: its lines have been added, and perhaps a builder is made. -/
theorem AreKept.push {context : UnitContext} {entries : List Entry} {before after : UnitState}
    {entry : Entry} (kept : context.AreKept before.builderIncludes entries)
    (adds : context.Adds (context.builtBy entries) before after entry.lines)
    (built : ∀ builder ∈ entry.builder, context.IsBuilderFor entry.id builder) :
    context.AreKept after.builderIncludes (entries ++ [entry]) := by
  refine ⟨?_, .append ?_ (.singleton ?_), fun path member => ?_⟩
  · exact List.forall_mem_append.mpr ⟨kept.built, List.forall_mem_singleton.mpr built⟩
  · exact kept.written.imp fun _ _ _ _ written line member =>
      (written line member).mono adds.includes
  · rw [List.append_nil]
    exact adds.written
  · rcases adds.needed path member with earlier | needed
    · obtain ⟨front, other, later, rfl, needed⟩ := kept.needed path earlier
      exact ⟨front, other, later ++ [entry], by simp, needed⟩
    · exact ⟨entries, entry, [], rfl, needed⟩

/-- Whether the builders of entries have the parameters of the class templates that they are for. -/
def AreDeclared (context : UnitContext) (entries : List Entry) : Prop :=
  ∀ entry ∈ entries, ∀ builder ∈ entry.builder,
    builder.templateParams =
      (context.tree.templateParameters entry.id).map context.templateParameter

/-- Whether the entries made so far account for the state of a unit. -/
structure Records (context : UnitContext) (entries : List Entry) (unit : UnitState) : Prop where
  builders : unit.builders = entries.filterMap (·.builder)
  knows : Knows (context.builtBy entries) unit
  kept : context.AreKept unit.builderIncludes entries
  declared : context.AreDeclared entries

namespace Records

variable {context : UnitContext} {entries : List Entry} {before after : UnitState}

theorem empty : context.Records [] UnitState.empty := by
  refine ⟨rfl, fun template => ?_, ⟨nofun, .nil, nofun⟩, nofun⟩
  rw [if_neg (by simp [builtBy])]
  rfl

theorem congr (records : context.Records entries before)
    (builders : after.builders = before.builders)
    (localBuilders : after.localBuilders = before.localBuilders)
    (includes : after.builderIncludes = before.builderIncludes) :
    context.Records entries after := by
  refine ⟨builders.trans records.builders, fun template => ?_, includes ▸ records.kept,
    records.declared⟩
  rw [localBuilders]
  exact records.knows template

theorem pushLines (records : context.Records entries before) {lines : List Line} (id : DeclId)
    (adds : context.Adds (context.builtBy entries) before after lines) :
    context.Records (entries ++ [⟨id, lines, none⟩]) after := by
  have same : context.builtBy (entries ++ [⟨id, lines, none⟩]) = context.builtBy entries := by
    simp [builtBy]
  refine ⟨?_, ?_, records.kept.push adds nofun, ?_⟩
  · rw [adds.builders, records.builders]
    simp
  · rw [same]
    exact adds.knows records.knows
  · exact List.forall_mem_append.mpr ⟨records.declared, List.forall_mem_singleton.mpr nofun⟩

theorem pushBuilder (records : context.Records entries before) {lines : List Line} {id : DeclId}
    {builder : Builder} (adds : context.Adds (context.builtBy entries) before after lines)
    (built : context.IsBuilderFor id builder)
    (declared : builder.templateParams =
      (context.tree.templateParameters id).map context.templateParameter) :
    context.Records (entries ++ [⟨id, lines, some builder⟩])
      (after.addBuilder (context.tree.qualifiedName id) builder) := by
  have last : context.builtBy [⟨id, lines, some builder⟩] = [context.tree.qualifiedName id] := rfl
  have kept : context.AreKept after.builderIncludes (entries ++ [⟨id, lines, some builder⟩]) :=
    records.kept.push adds fun other member => Option.some.inj member ▸ built
  refine ⟨?_, fun template => ?_, kept, ?_⟩
  · change after.builders ++ [builder] = _
    rw [adds.builders, records.builders, List.filterMap_append]
    rfl
  · change (assign _ _ after.localBuilders).lookup template = _
    rw [lookup_assign, adds.knows records.knows, built.1, builtBy_append, last]
    by_cases own : template = context.tree.qualifiedName id <;> simp [own]
  · refine List.forall_mem_append.mpr ⟨records.declared, List.forall_mem_singleton.mpr ?_⟩
    exact fun other member => Option.some.inj member ▸ declared

end Records

end UnitContext

/-! ## Visits -/

namespace Gen

/-- A computation that changes nothing but what has been reported. -/
def OnlyReports {α : Type} (step : Gen α) : Prop :=
  ∀ before value after, step.run before = some (value, after) → after.unit = before.unit

/-- A visitor whose work, what waits at its end and what it answers is told by more entries, whose
declarations stand in the given order. -/
def Journals (context : UnitContext) (order : List DeclId) (step : Gen (List Fragment)) : Prop :=
  ∀ entries before produced after, context.Records entries before.unit →
    before.unit.pending = [] → step.run before = some (produced, after) →
    ∃ more, (more.map (·.id)).Sublist order ∧ context.Records (entries ++ more) after.unit ∧
      after.unit.pending ++ produced = more.flatMap (·.fragments)

end Gen

namespace UnitContext

open Gen

variable {context : UnitContext}

theorem skipped_onlyReports (id : DeclId) : (context.skipped id).OnlyReports := by
  intro before value after run
  unfold skipped at run
  split at run <;> cases run <;> rfl

theorem exported_onlyReports (id : DeclId) : (context.exported id).OnlyReports := by
  intro before value after run
  unfold exported at run
  split at run <;> cases run <;> rfl

theorem mentionsSkipped_onlyReports (id : DeclId) (spellings : List String) :
    (context.mentionsSkipped id spellings).OnlyReports := by
  intro before value after run
  unfold mentionsSkipped at run
  split at run <;> cases run <;> rfl

end UnitContext

namespace Gen.Journals

variable {context : UnitContext} {order : List DeclId}

theorem nil : Journals context order (Pure.pure []) := by
  intro entries before produced after records idle run
  obtain ⟨rfl, rfl⟩ := run_pure_eq_some run
  exact ⟨[], List.nil_sublist _, by rwa [List.append_nil], by rw [idle]; rfl⟩

section

variable {α : Type} {first : Gen α} {rest : α → Gen (List Fragment)}

theorem afterAnswer {holds : α → Prop} (reports : first.OnlyReports)
    (answers : first.Answers holds)
    (journals : ∀ value, holds value → (rest value).Journals context order) :
    (first >>= rest).Journals context order := by
  intro entries before produced after records idle run
  obtain ⟨value, between, firstRun, restRun⟩ := run_bind_eq_some run
  have same := reports _ _ _ firstRun
  rw [← same] at records idle
  exact journals value (answers _ _ _ firstRun) _ _ _ _ records idle restRun

theorem afterReports (reports : first.OnlyReports)
    (journals : ∀ value, (rest value).Journals context order) :
    (first >>= rest).Journals context order :=
  afterAnswer reports (.anything first) fun value _ => journals value

end

/-- A declaration with nothing inside it gives one entry. -/
theorem of_writes {id : DeclId} {step : Gen (List Fragment)}
    (writes : ∀ templates, step.Writes context templates)
    (answers : step.Answers fun produced => ∀ fragment ∈ produced, ¬ fragment.IsDerivable) :
    step.Journals context [id] := by
  intro entries before produced after records idle run
  obtain ⟨lines, adds, waiting⟩ := writes _ _ _ _ records.knows run
  rw [idle, List.nil_append] at waiting
  have own : ∀ line ∈ produced.map (Line.mk · none),
      context.IsWritten (context.builtBy entries) after.unit.builderIncludes line :=
    List.forall_mem_map.mpr fun fragment member => .other (answers _ _ _ run fragment member)
  refine ⟨[⟨id, lines ++ produced.map (Line.mk · none), none⟩], List.Sublist.refl _,
    records.pushLines id (adds.append own), ?_⟩
  rw [waiting]
  simp [Entry.fragments, Function.comp_def]

end Gen.Journals

namespace UnitContext

open Gen

variable {context : UnitContext}

theorem visitEnum_answers (id : DeclId) (parent : Parent) :
    (context.visitEnum id parent).Answers fun produced =>
      ∀ fragment ∈ produced, ¬ fragment.IsDerivable := by
  unfold visitEnum
  dsimp only
  split
  · exact .pure (List.forall_mem_map.mpr fun _ _ => not_false)
  · refine .andThen fun skipped => ?_
    split
    · exact .pure nofun
    · refine .andThen fun bound => ?_
      split
      · exact .pure (List.forall_mem_singleton.mpr not_false)
      · exact .pure nofun

theorem Appends.answers {parent : Parent} {step : Gen (List Fragment)}
    (appends : step.Appends context parent) :
    step.Answers fun produced => ∀ fragment ∈ produced, ¬ fragment.IsDerivable :=
  fun _ _ _ run fragment member => (appends.loose run fragment member).1.not_isDerivable

theorem visitClassTemplate_journals (id : DeclId) :
    (do
      context.visitClassTemplate id
      return [] : Gen (List Fragment)).Journals context [id] := by
  unfold visitClassTemplate
  rw [bind_assoc]
  refine .afterReports (skipped_onlyReports id) fun skipped => ?_
  split
  case isTrue => exact .nil
  case isFalse =>
    rw [bind_assoc]
    refine .afterReports (exported_onlyReports id) fun exported => ?_
    split
    case isFalse => exact .nil
    case isTrue =>
      intro entries before produced after records idle run
      obtain ⟨_, visited, visitRun, run⟩ := Gen.run_bind_eq_some run
      obtain ⟨rfl, rfl⟩ := Gen.run_pure_eq_some run
      obtain ⟨⟨members, aliases⟩, made, memberRun, visitRun⟩ := Gen.run_bind_eq_some visitRun
      obtain ⟨lines, adds, waiting⟩ := classMembers_writes _ _ _ _ _ _ records.knows memberRun
      rw [idle, List.nil_append] at waiting
      dsimp only at visitRun
      split at visitRun
      case isTrue =>
        cases visitRun
        refine ⟨[⟨id, lines, some _⟩], List.Sublist.refl _,
          records.pushBuilder adds ⟨rfl, rfl⟩ rfl, ?_⟩
        simpa [Entry.fragments, UnitState.addBuilder] using waiting
      case isFalse =>
        cases visitRun
        refine ⟨[⟨id, lines, none⟩], List.Sublist.refl _, records.pushLines id adds, ?_⟩
        simpa [Entry.fragments] using waiting

/-- The instantiation that a typedef names is bound with its base, or it is refused. -/
theorem bindTypedef_journals {id template : DeclId} {cppType name : String} {args : List String}
    {parent : Parent} (named : context.namedInstantiation? id = some (template, cppType, args))
    (clean : context.IsClean cppType) :
    (do
      if ((← Gen.unit).identifierFor? cppType).isSome then
        return []
      else if ← Gen.register (Name.classIdentifier (context.tree.qualifiedName id)) cppType then
        let base ← context.declaredBase (context.speller.instantiateBase? template args)
        let builder ← context.builderCall template args
        return [.instantiation (Name.classIdentifier (context.tree.qualifiedName id)) name cppType
          base parent builder]
      else
        return [] : Gen (List Fragment)).Journals context [id] := by
  intro entries before produced after records idle run
  obtain ⟨state, start, stateRun, run⟩ := Gen.run_bind_eq_some run
  cases stateRun
  split at run
  case isTrue => exact Journals.nil _ _ _ _ records idle run
  case isFalse =>
    obtain ⟨bound, registered, registerRun, run⟩ := Gen.run_bind_eq_some run
    obtain ⟨first, registers, waits⟩ := Writes.register _ _ _ _ _ records.knows registerRun
    split at run
    case isFalse =>
      obtain ⟨rfl, rfl⟩ := Gen.run_pure_eq_some run
      refine ⟨[⟨id, first, none⟩], List.Sublist.refl _, records.pushLines id registers, ?_⟩
      simp [waits, idle, Entry.fragments]
    case isTrue =>
      obtain ⟨base, based, baseRun, run⟩ := Gen.run_bind_eq_some run
      obtain ⟨builder, built, builderRun, run⟩ := Gen.run_bind_eq_some run
      obtain ⟨rfl, rfl⟩ := Gen.run_pure_eq_some run
      have derived {inner : DeclId} {spelling : String} {written : List String}
          (isBase : context.speller.instantiateBase? template args =
            some (.instantiation inner spelling written)) :
          context.Spells inner written spelling :=
        .inl ⟨template, context.tree.parameterNames template, args, isBase⟩
      have knows := registers.knows records.knows
      obtain ⟨lines, adds, waiting⟩ := declaredBase_writes derived _ _ _ knows baseRun
      obtain ⟨calls, unchanged⟩ := adds_of_builderCall (adds.knows knows) builderRun
        (.inr (.inl ⟨id, named⟩)) clean (declaredBase_answers _ _ _ _ baseRun)
        (Name.classIdentifier (context.tree.qualifiedName id)) name parent
      have all := (registers.trans adds).trans calls
      refine ⟨[⟨id, _, none⟩], List.Sublist.refl _, records.pushLines id all, ?_⟩
      simp [unchanged, waiting, waits, idle, Entry.fragments]

theorem visitTypedef_journals (id : DeclId) (parent : Parent) :
    (context.visitTypedef id parent).Journals context [id] := by
  unfold visitTypedef
  split
  case isTrue => exact .nil
  case isFalse =>
    refine .afterReports (skipped_onlyReports id) fun skipped => ?_
    split
    · exact .nil
    · split
      case h_1 => exact .nil
      case h_2 template cppType args named =>
        refine .afterReports (skipped_onlyReports template) fun skipped => ?_
        split
        · exact .nil
        · refine .afterAnswer (mentionsSkipped_onlyReports id [cppType])
            (context.mentionsSkipped_answers id [cppType]) fun mentions found => ?_
          split
          case isTrue => exact .nil
          case isFalse kept =>
            rw [found] at kept
            exact bindTypedef_journals named (by simpa [skippedMention?, IsClean] using kept)

/-! ## Visits of what has declarations inside -/

variable {visit : DeclId → Parent → Gen (List Fragment)} {order : DeclId → List DeclId}

theorem visitEach_journals (journals : ∀ id parent, (visit id parent).Journals context (order id))
    (ids : List DeclId) {parent : Parent} {entries : List Entry} {before after : Progress}
    {pieces : List (List Fragment)} (records : context.Records entries before.unit)
    (idle : before.unit.pending = [])
    (run : (ids.mapM fun id => do
      let produced ← visit id parent
      return (← Gen.takePending) ++ produced : Gen (List (List Fragment))).run before =
        some (pieces, after)) :
    ∃ more, (more.map (·.id)).Sublist (ids.flatMap order) ∧
      context.Records (entries ++ more) after.unit ∧ after.unit.pending = [] ∧
      pieces.flatten = more.flatMap (·.fragments) := by
  induction ids generalizing entries before pieces with
  | nil =>
      rw [List.mapM_nil] at run
      obtain ⟨rfl, rfl⟩ := Gen.run_pure_eq_some run
      exact ⟨[], List.nil_sublist _, by rwa [List.append_nil], idle, rfl⟩
  | cons id rest ih =>
      rw [List.mapM_cons] at run
      obtain ⟨piece, between, pieceRun, run⟩ := Gen.run_bind_eq_some run
      obtain ⟨others, last, othersRun, run⟩ := Gen.run_bind_eq_some run
      obtain ⟨rfl, rfl⟩ := Gen.run_pure_eq_some run
      obtain ⟨produced, visited, visitRun, pieceRun⟩ := Gen.run_bind_eq_some pieceRun
      obtain ⟨waiting, taken, takeRun, pieceRun⟩ := Gen.run_bind_eq_some pieceRun
      rw [Gen.run_takePending] at takeRun
      cases Option.some.inj takeRun
      obtain ⟨rfl, rfl⟩ := Gen.run_pure_eq_some pieceRun
      obtain ⟨first, inOrder, recorded, told⟩ := journals id parent _ _ _ _ records idle visitRun
      have released : context.Records (entries ++ first) visited.release.unit :=
        recorded.congr rfl rfl rfl
      obtain ⟨later, behind, complete, nothing, rest⟩ := ih released rfl othersRun
      refine ⟨first ++ later, ?_, by rwa [← List.append_assoc], nothing, ?_⟩
      · rw [List.map_append, List.flatMap_cons]
        exact inOrder.append behind
      · rw [List.flatten_cons, List.flatMap_append, told, rest]

theorem visitAll_journals (journals : ∀ id parent, (visit id parent).Journals context (order id))
    (ids : List DeclId) {parent : Parent} {entries : List Entry} {before after : Progress}
    {produced : List Fragment} (records : context.Records entries before.unit)
    (idle : before.unit.pending = [])
    (run : (context.visitAll visit ids parent).run before = some (produced, after)) :
    ∃ more, (more.map (·.id)).Sublist ((ids.filter context.accepts).flatMap order) ∧
      context.Records (entries ++ more) after.unit ∧ after.unit.pending = [] ∧
      produced = more.flatMap (·.fragments) := by
  obtain ⟨pieces, between, piecesRun, run⟩ := Gen.run_bind_eq_some run
  obtain ⟨rfl, rfl⟩ := Gen.run_pure_eq_some run
  exact visitEach_journals journals _ records idle piecesRun

theorem visitNamespace_journals
    (journals : ∀ id parent, (visit id parent).Journals context (order id)) (id : DeclId)
    (parent : Parent) :
    (context.visitNamespace visit id parent).Journals context
      (id :: ((context.tree.children id).filter context.accepts).flatMap order) := by
  unfold visitNamespace
  dsimp only
  split
  case isTrue => exact .nil
  case isFalse =>
    split
    case isTrue =>
      intro entries before produced after records idle run
      obtain ⟨more, inOrder, recorded, nothing, rfl⟩ :=
        visitAll_journals journals _ records idle run
      exact ⟨more, inOrder.trans (List.sublist_cons_self _ _), recorded, by rw [nothing]; rfl⟩
    case isFalse =>
      refine .afterReports (skipped_onlyReports id) fun skipped => ?_
      split
      case isTrue => exact .nil
      case isFalse =>
        intro entries before produced after records idle run
        obtain ⟨opened, entered, openRun, run⟩ := Gen.run_bind_eq_some run
        obtain ⟨inside, visited, insideRun, run⟩ := Gen.run_bind_eq_some run
        obtain ⟨rfl, rfl⟩ := Gen.run_pure_eq_some run
        obtain ⟨adds, unchanged⟩ : context.Adds (context.builtBy entries) before.unit entered.unit
            (opened.toList.map (Line.mk · none)) ∧
              entered.unit.pending = before.unit.pending := by
          obtain ⟨-, rfl, rfl⟩ | ⟨-, ⟨name, rfl⟩, rfl⟩ := run_openNamespace openRun
          · exact ⟨.nothing rfl rfl rfl, rfl⟩
          · have written : ∀ line ∈ [Line.mk (.module_ (context.moduleIdentifier id) name parent)
                none],
                context.IsWritten (context.builtBy entries) before.unit.builderIncludes line :=
              List.forall_mem_singleton.mpr (.other not_false)
            exact ⟨⟨rfl, rfl, List.Subset.refl _, written, fun _ => .inl⟩, rfl⟩
        have recorded := records.pushLines id adds
        obtain ⟨more, inOrder, complete, nothing, rfl⟩ :=
          visitAll_journals journals _ recorded (unchanged.trans idle) insideRun
        refine ⟨⟨id, opened.toList.map (Line.mk · none), none⟩ :: more, inOrder.cons_cons id, ?_,
          ?_⟩
        · rwa [List.append_assoc] at complete
        · rw [nothing]
          simp [Entry.fragments, Function.comp_def]

/-- A fragment finds its place among those that waited. -/
theorem exists_perm_around (lines : List Line) (own : Line) (stays : Fragment → Bool) :
    ∃ around, (lines ++ [own]).Perm around ∧
      around.map (·.fragment) = (lines.map (·.fragment)).takeWhile stays ++
        own.fragment :: (lines.map (·.fragment)).dropWhile stays := by
  let before := lines.takeWhile fun line => stays line.fragment
  let behind := lines.dropWhile fun line => stays line.fragment
  refine ⟨before ++ own :: behind, ?_, ?_⟩
  · refine .trans ?_ List.perm_middle.symm
    rw [List.takeWhile_append_dropWhile]
    exact List.perm_append_comm
  · rw [List.takeWhile_map, List.dropWhile_map, List.map_append, List.map_cons]
    rfl

theorem visitClass_journals
    (journals : ∀ id parent, (visit id parent).Journals context (order id)) (id : DeclId)
    (parent : Parent) :
    (context.visitClass visit id parent).Journals context
      (id :: ((nestedDeclarations context.tree id).filter context.accepts).flatMap order) := by
  unfold visitClass
  dsimp only
  split
  case isTrue => exact .nil
  case isFalse =>
    refine .afterReports (skipped_onlyReports id) fun skipped => ?_
    split
    case isTrue => exact .nil
    case isFalse =>
      refine .afterReports (exported_onlyReports id) fun exported => ?_
      split
      case isTrue => exact .nil
      case isFalse =>
        intro entries before produced after records idle run
        obtain ⟨bound, registered, registerRun, run⟩ := Gen.run_bind_eq_some run
        obtain ⟨first, registers, waits⟩ := Writes.register _ _ _ _ _ records.knows registerRun
        split at run
        case isFalse =>
          obtain ⟨rfl, rfl⟩ := Gen.run_pure_eq_some run
          refine ⟨[⟨id, first, none⟩], by simp, records.pushLines id registers, ?_⟩
          simp [waits, idle, Entry.fragments]
        case isTrue =>
          have knows := registers.knows records.knows
          obtain ⟨base, based, baseRun, run⟩ := Gen.run_bind_eq_some run
          obtain ⟨second, bases, baseWaits⟩ :=
            declaredBase_writes (fun isBase => .inl ⟨id, [], [], isBase⟩) _ _ _ knows baseRun
          obtain ⟨opaqueClasses, declared, opaqueRun, run⟩ := Gen.run_bind_eq_some run
          obtain ⟨third, declares, opaqueWaits⟩ :=
            Writes.isInherited.opaqueClasses .register _ _ _ (bases.knows knows) opaqueRun
          obtain ⟨⟨members, aliases⟩, filled, memberRun, run⟩ := Gen.run_bind_eq_some run
          obtain ⟨fourth, fills, memberWaits⟩ := classMembers_writes _ _ _ _ _ _
            (declares.knows (bases.knows knows)) memberRun
          obtain ⟨waiting, taken, takeRun, run⟩ := Gen.run_bind_eq_some run
          rw [Gen.run_takePending] at takeRun
          cases Option.some.inj takeRun
          dsimp only at run
          rw [List.span_eq_takeWhile_dropWhile] at run
          obtain ⟨nested, visited, nestedRun, run⟩ := Gen.run_bind_eq_some run
          obtain ⟨rfl, rfl⟩ := Gen.run_pure_eq_some run
          generalize shape : ClassBinding.mk _ _ _ _ _ _ _ _ = binding
          have cleanBase : ∀ spelling ∈ binding.base, context.IsClean spelling := by
            rw [← shape]
            exact declaredBase_answers _ _ _ _ baseRun
          have adds := ((registers.trans bases).trans declares).trans fills
          have queue : filled.unit.pending =
              (first ++ second ++ third ++ fourth).map (·.fragment) := by
            rw [memberWaits, opaqueWaits, baseWaits, waits, idle]
            simp
          obtain ⟨around, same, told⟩ := exists_perm_around (first ++ second ++ third ++ fourth)
            ⟨.class_ binding, none⟩ (·.parent != .class_ (Name.classIdentifier
              (context.tree.qualifiedName id)))
          have placed := (adds.append (List.forall_mem_singleton.mpr (.class_ cleanBase))).perm same
          have recorded : context.Records (entries ++ [⟨id, around, none⟩]) filled.release.unit :=
            (records.pushLines id placed).congr rfl rfl rfl
          obtain ⟨more, inOrder, complete, nothing, rfl⟩ :=
            visitAll_journals journals _ recorded rfl nestedRun
          refine ⟨⟨id, around, none⟩ :: more, inOrder.cons_cons id, ?_, ?_⟩
          · rwa [List.append_assoc] at complete
          · rw [nothing, queue, List.flatMap_cons, Entry.fragments, told]
            simp

theorem visitTo_journals (depth : Nat) (id : DeclId) (parent : Parent) :
    (context.visitTo depth id parent).Journals context (context.visitOrderTo depth id) := by
  induction depth generalizing id parent with
  | zero =>
      intro entries before produced after _ _ run
      cases run
  | succ depth ih =>
      unfold visitTo
      split
      case h_1 isNamespace =>
        rw [visitOrderTo, isNamespace]
        exact visitNamespace_journals ih id parent
      case h_2 isLinkage =>
        rw [visitOrderTo, isLinkage]
        intro entries before produced after records idle run
        obtain ⟨more, inOrder, recorded, nothing, rfl⟩ := visitAll_journals ih _ records idle run
        exact ⟨more, inOrder.trans (List.sublist_cons_self _ _), recorded, by rw [nothing]; rfl⟩
      case h_3 isClass =>
        rw [visitOrderTo, isClass]
        exact visitClass_journals ih id parent
      case h_4 isStruct =>
        rw [visitOrderTo, isStruct]
        exact visitClass_journals ih id parent
      case h_5 isTemplate =>
        rw [visitOrderTo, isTemplate]
        exact visitClassTemplate_journals id
      case h_6 isEnum =>
        rw [visitOrderTo, isEnum]
        exact .of_writes (fun _ => Writes.isInherited.visitEnum .register)
          (visitEnum_answers id parent)
      case h_7 isFunction =>
        rw [visitOrderTo, isFunction]
        exact .of_writes (fun templates => Writes.isInherited.visitFunction
          (fun _ => .change fun _ => ⟨rfl, rfl, rfl, rfl⟩) fun _ => signature_writes id false)
          (Appends.answers (visitFunction_appends id parent))
      case h_8 isVariable =>
        rw [visitOrderTo, isVariable]
        exact .of_writes (fun templates => Writes.isInherited.visitVariable context id parent)
          (Appends.answers (visitVariable_appends id parent))
      case h_9 isTypedef =>
        rw [visitOrderTo, isTypedef]
        exact visitTypedef_journals id parent
      case h_10 isAlias =>
        rw [visitOrderTo, isAlias]
        exact visitTypedef_journals id parent
      case h_11 => exact .nil

/-- Whether entries are a journal of a unit with the given bindings. -/
structure IsJournal (context : UnitContext) (bindings : UnitBindings) (entries : List Entry) :
    Prop where
  order : (entries.map (·.id)).Sublist context.visitOrder
  fragments : bindings.fragments = entries.flatMap (·.fragments)
  builders : bindings.builders = entries.filterMap (·.builder)
  kept : context.AreKept bindings.builderIncludes entries

theorem journal_of_visitUnit {fragments : List Fragment} {progress : Progress}
    (run : context.visitUnit.run ⟨UnitState.empty, []⟩ = some (fragments, progress)) :
    ∃ entries, context.IsJournal (context.bindings fragments progress.unit) entries ∧
      Knows (context.builtBy entries) progress.unit ∧ context.AreDeclared entries := by
  obtain ⟨entries, inOrder, records, -, told⟩ :=
    visitAll_journals (visitTo_journals context.tree.size) _ .empty rfl run
  rw [List.nil_append] at records
  exact ⟨entries, ⟨inOrder, told, records.builders, records.kept⟩, records.knows,
    records.declared⟩

end UnitContext

end Bindery
