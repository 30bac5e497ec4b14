import Bindery.Proofs.Binding.Composition
import Bindery.Proofs.Binding.Reach
import Bindery.Proofs.Binding.Synthesis

/-!
# What is written down

A unit can be read as a journal: an instantiation is written down with the template that it was made
for, and carries the call of a builder if there was one by then.  This module is about the steps
that write: which lines they add, and that each file they include is one that a line needs.
-/

set_option autoImplicit false

namespace Bindery

/-- A fragment, and for an instantiation the class template and the arguments it is made for. -/
structure Line where
  fragment : Fragment
  made : Option (DeclId × List String)

/-- Whether a fragment can have a base. -/
def Fragment.IsDerivable : Fragment → Prop
  | class_ _ => True
  | instantiation _ _ _ _ _ _ => True
  | _ => False

theorem Fragment.IsLoose.not_isDerivable {fragment : Fragment} (loose : fragment.IsLoose) :
    ¬ fragment.IsDerivable := by
  cases fragment with
  | class_ => cases loose
  | instantiation => cases loose
  | _ => exact id

namespace UnitContext

/-- No word of a skipped symbol stands in a spelling. -/
def IsClean (context : UnitContext) (spelling : String) : Prop :=
  context.options.skip.mentionedIn spelling = none

/-- Whether a unit has builders for the templates of the given names and for no others. -/
def Knows (templates : List String) (unit : UnitState) : Prop :=
  ∀ template, unit.localBuilders.lookup template =
    if template ∈ templates then some (Name.builder template) else none

/-- The call that an instantiation carries: to a builder of the unit itself, else to one of an
earlier unit, whose file is included then. -/
inductive Calls (context : UnitContext) (templates includes : List String) (template : DeclId)
    (args : List String) : Option BuilderCall → Prop
  | own (known : context.tree.qualifiedName template ∈ templates) :
      Calls context templates includes template args
        (some ⟨Name.builder (context.tree.qualifiedName template), args⟩)
  | borrowed {location : BuilderLocation}
      (unknown : context.tree.qualifiedName template ∉ templates)
      (found : context.index.builder? (context.tree.qualifiedName template) = some location)
      (included : ∃ path ∈ includes, Path.same location.ippPath path = true) :
      Calls context templates includes template args (some ⟨location.name, args⟩)
  | missing (unknown : context.tree.qualifiedName template ∉ templates)
      (unfound : context.index.builder? (context.tree.qualifiedName template) = none) :
      Calls context templates includes template args none

/-- Whether an instantiation of a template has to use the builder in a file. -/
def Needs (context : UnitContext) (templates : List String) (template : DeclId) (path : String) :
    Prop :=
  context.tree.qualifiedName template ∉ templates ∧
    ∃ location, context.index.builder? (context.tree.qualifiedName template) = some location ∧
      location.ippPath = path

/-- How fragments are written down. -/
inductive IsWritten (context : UnitContext) (templates includes : List String) : Line → Prop
  | instantiation {template : DeclId} {identifier name cppType : String} {args : List String}
      {base : Option String} {parent : Parent} {builder : Option BuilderCall}
      (spells : context.Spells template args cppType)
      (calls : context.Calls templates includes template args builder)
      (clean : context.IsClean cppType) (cleanBase : ∀ spelling ∈ base, context.IsClean spelling) :
      IsWritten context templates includes
        ⟨.instantiation identifier name cppType base parent builder, some (template, args)⟩
  | class_ {binding : ClassBinding}
      (cleanBase : ∀ spelling ∈ binding.base, context.IsClean spelling) :
      IsWritten context templates includes ⟨.class_ binding, none⟩
  | other {fragment : Fragment} (other : ¬ fragment.IsDerivable) :
      IsWritten context templates includes ⟨fragment, none⟩

section

variable {context : UnitContext} {templates includes more : List String}

theorem Calls.mono {template : DeclId} {args : List String} {builder : Option BuilderCall}
    (calls : context.Calls templates includes template args builder) (grows : includes ⊆ more) :
    context.Calls templates more template args builder := by
  cases calls with
  | own known => exact .own known
  | borrowed unknown found included =>
      obtain ⟨path, member, same⟩ := included
      exact .borrowed unknown found ⟨path, grows member, same⟩
  | missing unknown unfound => exact .missing unknown unfound

theorem IsWritten.mono {line : Line} (written : context.IsWritten templates includes line)
    (grows : includes ⊆ more) : context.IsWritten templates more line := by
  cases written with
  | instantiation spells calls clean cleanBase =>
      exact .instantiation spells (calls.mono grows) clean cleanBase
  | class_ cleanBase => exact .class_ cleanBase
  | other other => exact .other other

end

/-- What a part of a run adds to a unit: lines, and the files that they need. -/
structure Adds (context : UnitContext) (templates : List String) (before after : UnitState)
    (lines : List Line) : Prop where
  builders : after.builders = before.builders
  localBuilders : after.localBuilders = before.localBuilders
  includes : before.builderIncludes ⊆ after.builderIncludes
  written : ∀ line ∈ lines, context.IsWritten templates after.builderIncludes line
  needed : ∀ path ∈ after.builderIncludes, path ∈ before.builderIncludes ∨
    ∃ line ∈ lines, ∃ made ∈ line.made, context.Needs templates made.1 path

namespace Adds

variable {context : UnitContext} {templates : List String} {before between after : UnitState}
  {lines : List Line}

theorem nothing (builders : after.builders = before.builders)
    (localBuilders : after.localBuilders = before.localBuilders)
    (includes : after.builderIncludes = before.builderIncludes) :
    context.Adds templates before after [] := by
  refine ⟨builders, localBuilders, includes ▸ List.Subset.refl _, nofun, fun path member => ?_⟩
  exact .inl (includes ▸ member)

theorem trans {others : List Line} (left : context.Adds templates before between lines)
    (right : context.Adds templates between after others) :
    context.Adds templates before after (lines ++ others) := by
  refine ⟨right.builders.trans left.builders, right.localBuilders.trans left.localBuilders,
    fun path member => right.includes (left.includes member),
    List.forall_mem_append.mpr
      ⟨fun line member => (left.written line member).mono right.includes, right.written⟩,
    fun path member => ?_⟩
  rcases right.needed path member with earlier | ⟨line, added, needs⟩
  · rcases left.needed path earlier with present | ⟨line, added, needs⟩
    · exact .inl present
    · exact .inr ⟨line, List.mem_append_left _ added, needs⟩
  · exact .inr ⟨line, List.mem_append_right _ added, needs⟩

theorem perm {others : List Line} (adds : context.Adds templates before after lines)
    (same : lines.Perm others) : context.Adds templates before after others := by
  refine ⟨adds.builders, adds.localBuilders, adds.includes,
    fun line member => adds.written line (same.mem_iff.mpr member), fun path member => ?_⟩
  refine (adds.needed path member).imp id ?_
  rintro ⟨line, added, needs⟩
  exact ⟨line, same.mem_iff.mp added, needs⟩

/-- A class or anything that has no base is added without a file. -/
theorem append {others : List Line} (adds : context.Adds templates before after lines)
    (written : ∀ line ∈ others, context.IsWritten templates after.builderIncludes line) :
    context.Adds templates before after (lines ++ others) :=
  adds.trans ⟨rfl, rfl, List.Subset.refl _, written, fun _ member => .inl member⟩

theorem knows (adds : context.Adds templates before after lines) (knows : Knows templates before) :
    Knows templates after := by
  intro template
  rw [adds.localBuilders]
  exact knows template

end Adds

end UnitContext

/-! ## Computations that write -/

namespace Gen

/-- A computation that lets the fragments of lines wait and adds the lines. -/
def Writes (context : UnitContext) (templates : List String) {α : Type} (step : Gen α) : Prop :=
  ∀ before value after, UnitContext.Knows templates before.unit →
    step.run before = some (value, after) →
    ∃ lines, context.Adds templates before.unit after.unit lines ∧
      after.unit.pending = before.unit.pending ++ lines.map (·.fragment)

namespace Writes

variable {context : UnitContext} {templates : List String} {α β : Type}

theorem pure (value : α) : Writes context templates (Pure.pure value) := by
  intro before result after _ run
  obtain ⟨rfl, rfl⟩ := run_pure_eq_some run
  exact ⟨[], .nothing rfl rfl rfl, (List.append_nil _).symm⟩

/-- What is known of the first answer may be used for the rest. -/
theorem bindKnown {first : Gen α} {rest : α → Gen β} {holds : α → Prop}
    (writesFirst : first.Writes context templates) (answers : first.Answers holds)
    (writesRest : ∀ value, holds value → (rest value).Writes context templates) :
    (first >>= rest).Writes context templates := by
  intro before result after knows run
  obtain ⟨value, between, firstRun, restRun⟩ := run_bind_eq_some run
  obtain ⟨lines, adds, waiting⟩ := writesFirst _ _ _ knows firstRun
  obtain ⟨others, further, queue⟩ :=
    writesRest value (answers _ _ _ firstRun) _ _ _ (adds.knows knows) restRun
  refine ⟨lines ++ others, adds.trans further, ?_⟩
  rw [queue, waiting, List.map_append, List.append_assoc]

theorem bind {first : Gen α} {rest : α → Gen β} (writesFirst : first.Writes context templates)
    (writesRest : ∀ value, (rest value).Writes context templates) :
    (first >>= rest).Writes context templates :=
  bindKnown writesFirst (.anything first) fun value _ => writesRest value

theorem unit : Writes context templates Gen.unit := by
  intro before value after _ run
  cases run
  exact ⟨[], .nothing rfl rfl rfl, (List.append_nil _).symm⟩

theorem report (event : Event) : Writes context templates (Gen.report event) := by
  intro before value after _ run
  cases run
  exact ⟨[], .nothing rfl rfl rfl, (List.append_nil _).symm⟩

theorem change {update : UnitState → UnitState}
    (kept : ∀ unit, (update unit).builders = unit.builders ∧
      (update unit).localBuilders = unit.localBuilders ∧
      (update unit).builderIncludes = unit.builderIncludes ∧
      (update unit).pending = unit.pending) : Writes context templates (Gen.change update) := by
  intro before value after _ run
  cases run
  obtain ⟨builders, localBuilders, includes, pending⟩ := kept before.unit
  exact ⟨[], .nothing builders localBuilders includes, by simpa [Progress.withUnit] using pending⟩

theorem register (identifier cppType : String) :
    Writes context templates (Gen.register identifier cppType) := by
  intro before value after _ run
  obtain ⟨unit, -, registered, rfl⟩ | ⟨-, -, rfl⟩ := run_register_eq_some run
  · obtain ⟨-, -, rfl⟩ := UnitState.register?_eq_some registered
    exact ⟨[], .nothing rfl rfl rfl, (List.append_nil _).symm⟩
  · exact ⟨[], .nothing rfl rfl rfl, (List.append_nil _).symm⟩

theorem enqueue {fragment : Fragment} (other : ¬ fragment.IsDerivable) :
    Writes context templates (Gen.enqueue fragment) := by
  intro before value after _ run
  cases run
  refine ⟨[⟨fragment, none⟩], ⟨rfl, rfl, List.Subset.refl _, ?_, fun _ member => .inl member⟩, rfl⟩
  exact List.forall_mem_singleton.mpr (.other other)

theorem isInherited : IsInherited (Writes context templates) where
  pure := pure
  bind := bind
  report := report
  addTraits _ := by
    refine change fun unit => ?_
    unfold UnitState.addTraits
    split <;> exact ⟨rfl, rfl, rfl, rfl⟩

end Writes

end Gen

namespace UnitContext

open Gen

variable {context : UnitContext} {templates : List String}

/-! ## Scopes and bases -/

theorem openNamespace_writes (id : DeclId) (parent : Parent) :
    (context.openNamespace id parent).Writes context templates := by
  unfold openNamespace
  refine .bind .unit fun state => ?_
  dsimp only
  split
  · exact .pure none
  · exact .bind (.change fun _ => ⟨rfl, rfl, rfl, rfl⟩) fun _ => .pure _

theorem openNamespace_answers (id : DeclId) (parent : Parent) :
    (context.openNamespace id parent).Answers fun opened =>
      ∀ fragment ∈ opened, ¬ fragment.IsDerivable := by
  intro before opened after run
  obtain ⟨-, rfl, -⟩ | ⟨-, ⟨name, rfl⟩, -⟩ := run_openNamespace run
  · exact nofun
  · intro fragment member
    cases Option.some.inj member
    exact not_false

theorem ensureScopeTo_writes (depth : Nat) (scope : Option DeclId) :
    (context.ensureScopeTo depth scope).Writes context templates := by
  induction depth generalizing scope with
  | zero =>
      cases scope with
      | none => exact .pure _
      | some id =>
          intro before value after _ run
          cases run
  | succ depth ih =>
      cases scope with
      | none => exact .pure _
      | some id =>
          unfold ensureScopeTo
          dsimp only
          split
          · exact .pure _
          · refine .bind (ih _) fun outer => ?_
            split
            · refine .bindKnown (openNamespace_writes id outer) (openNamespace_answers id outer)
                fun opened plain => ?_
              split
              case h_1 fragment _ => exact .bind (.enqueue (plain _ rfl)) fun _ => .pure _
              case h_2 => exact .pure _
            · exact .pure outer
          iterate 3
            · refine .bind .unit fun state => ?_
              split
              · exact .pure _
              · exact ih _
          · exact ih _

/-! ## Instantiations -/

theorem run_builderCall {template : DeclId} {args : List String} {builder : Option BuilderCall}
    {before after : Progress} (knows : Knows templates before.unit)
    (run : (context.builderCall template args).run before = some (builder, after)) :
    ∃ includes, after = before.withUnit { before.unit with builderIncludes := includes } ∧
      before.unit.builderIncludes ⊆ includes ∧
      context.Calls templates includes template args builder ∧
      ∀ path ∈ includes, path ∈ before.unit.builderIncludes ∨
        context.Needs templates template path := by
  unfold builderCall at run
  obtain ⟨state, start, stateRun, run⟩ := Gen.run_bind_eq_some run
  cases stateRun
  rw [knows] at run
  by_cases known : context.tree.qualifiedName template ∈ templates
  · rw [if_pos known] at run
    obtain ⟨rfl, rfl⟩ := Gen.run_pure_eq_some run
    exact ⟨_, rfl, List.Subset.refl _, .own known, fun _ => .inl⟩
  · rw [if_neg known] at run
    dsimp only at run
    split at run
    case h_1 location found =>
      obtain ⟨_, changed, changeRun, run⟩ := Gen.run_bind_eq_some run
      cases changeRun
      obtain ⟨rfl, rfl⟩ := Gen.run_pure_eq_some run
      dsimp only [UnitState.includeBuilders]
      split
      case isTrue included =>
        exact ⟨_, rfl, List.Subset.refl _, .borrowed known found (List.any_eq_true.mp included),
          fun _ => .inl⟩
      case isFalse =>
        refine ⟨_, rfl, List.subset_append_left _ _,
          .borrowed known found ⟨_, List.mem_append_right _ (List.mem_singleton_self _),
            beq_self_eq_true _⟩, fun path member => ?_⟩
        rcases List.mem_append.mp member with earlier | new
        · exact .inl earlier
        · exact .inr ⟨known, location, found, (List.mem_singleton.mp new).symm⟩
    case h_2 unfound =>
      obtain ⟨rfl, rfl⟩ := Gen.run_pure_eq_some run
      exact ⟨_, rfl, List.Subset.refl _, .missing known unfound, fun _ => .inl⟩

/-- An instantiation is added together with the file of its builder. -/
theorem adds_of_builderCall {template : DeclId} {args : List String}
    {builder : Option BuilderCall} {before after : Progress} {cppType : String}
    {base : Option String} (knows : Knows templates before.unit)
    (run : (context.builderCall template args).run before = some (builder, after))
    (spells : context.Spells template args cppType) (clean : context.IsClean cppType)
    (cleanBase : ∀ spelling ∈ base, context.IsClean spelling) (identifier name : String)
    (parent : Parent) :
    context.Adds templates before.unit after.unit
        [⟨.instantiation identifier name cppType base parent builder, some (template, args)⟩] ∧
      after.unit.pending = before.unit.pending := by
  obtain ⟨includes, rfl, grows, calls, needed⟩ := run_builderCall knows run
  refine ⟨⟨rfl, rfl, grows, List.forall_mem_singleton.mpr (.instantiation spells calls clean
    cleanBase), fun path member => (needed path member).imp id fun needs => ?_⟩, rfl⟩
  exact ⟨_, List.mem_singleton_self _, _, rfl, needs⟩

theorem synthesize_writes {template : DeclId} {cppType : String} {args : List String}
    {base : Option String} (spells : context.Spells template args cppType)
    (clean : context.IsClean cppType) (cleanBase : ∀ spelling ∈ base, context.IsClean spelling) :
    (context.synthesize template cppType args base).Writes context templates := by
  unfold synthesize
  refine .bind (ensureScopeTo_writes _ _) fun parent => ?_
  refine .bind (.register _ _) fun bound => ?_
  split
  case isFalse => exact .pure _
  case isTrue =>
    -- The file is included before the fragment that needs it waits, so the two go together.
    intro before value after knows run
    obtain ⟨builder, called, callRun, run⟩ := Gen.run_bind_eq_some run
    obtain ⟨_, reported, reportRun, queueRun⟩ := Gen.run_bind_eq_some run
    cases reportRun
    cases queueRun
    obtain ⟨adds, waiting⟩ := adds_of_builderCall knows callRun spells clean cleanBase
      (context.synthesizedIdentifier template args) (context.synthesizedName template args) parent
    refine ⟨_, ⟨adds.builders, adds.localBuilders, adds.includes, adds.written, adds.needed⟩, ?_⟩
    change called.unit.pending ++ _ = _
    rw [waiting]
    rfl

theorem isClean_of_admits {template : DeclId} {cppType : String} {args : List String}
    (admitted : context.admits template cppType args = true) : context.IsClean cppType := by
  unfold admits at admitted
  exact Option.isNone_iff_eq_none.mp (Bool.and_elim_right admitted)

theorem admitsInstantiation_writes (template : DeclId) (cppType : String) (args : List String) :
    (context.admitsInstantiation template cppType args).Writes context templates := by
  intro before value after _ run
  obtain ⟨events, admitsRun⟩ := context.run_admitsInstantiation template cppType args before
  rw [admitsRun] at run
  cases run
  exact ⟨[], .nothing rfl rfl rfl, (List.append_nil _).symm⟩

theorem admitsInstantiation_answers (template : DeclId) (cppType : String) (args : List String) :
    (context.admitsInstantiation template cppType args).Answers fun admitted =>
      admitted = true → context.IsClean cppType := by
  intro before value after run
  obtain ⟨events, admitsRun⟩ := context.run_admitsInstantiation template cppType args before
  rw [admitsRun] at run
  cases run
  exact isClean_of_admits

theorem forall_mem_none : ∀ spelling ∈ (none : Option String), context.IsClean spelling := by
  simp

theorem requireInstantiationTo_answers (depth : Nat) (template : DeclId) (cppType : String)
    (args : List String) :
    (context.requireInstantiationTo depth template cppType args).Answers fun bound =>
      ∀ spelling ∈ bound, context.IsClean spelling := by
  unfold requireInstantiationTo
  refine .bind (admitsInstantiation_answers template cppType args) fun admitted clean => ?_
  split
  case isTrue => exact .pure forall_mem_none
  case isFalse agreed =>
    have known : ∀ spelling ∈ some cppType, context.IsClean spelling := by
      intro spelling member
      cases Option.some.inj member
      exact clean (by simpa using agreed)
    refine .andThen fun state => ?_
    split
    · exact .pure known
    · cases depth with
      | zero =>
          intro before value after run
          cases run
      | succ less =>
          dsimp only
          refine .andThen fun _ => ?_
          split
          · exact .andThen fun base => .andThen fun _ => .pure known
          · exact .andThen fun base => .andThen fun _ => .pure known

theorem bindBase_answers {require : DeclId → String → List String → Gen (Option String)}
    (clean : ∀ template cppType args, (require template cppType args).Answers fun bound =>
      ∀ spelling ∈ bound, context.IsClean spelling) (base : BaseClass) :
    (context.bindBase require base).Answers fun bound =>
      ∀ spelling ∈ bound, context.IsClean spelling := by
  unfold bindBase
  split
  case h_1 => exact clean _ _ _
  case h_2 cppType decl =>
    have answers (excluded : Bool) :
        (if excluded || (context.options.skip.mentionedIn cppType).isSome then pure none
          else pure (some cppType) : Gen (Option String)).Answers fun bound =>
            ∀ spelling ∈ bound, context.IsClean spelling := by
      split
      case isTrue => exact .pure forall_mem_none
      case isFalse kept =>
        refine .pure fun spelling member => ?_
        cases Option.some.inj member
        rw [Bool.or_eq_true, not_or] at kept
        exact Option.not_isSome_iff_eq_none.mp kept.2
    dsimp only
    split
    · split <;> exact .andThen answers
    · exact .andThen answers

theorem bindBase_writes {require : DeclId → String → List String → Gen (Option String)}
    {base : BaseClass}
    (writes : ∀ {template cppType args}, base = .instantiation template cppType args →
      (require template cppType args).Writes context templates) :
    (context.bindBase require base).Writes context templates := by
  unfold bindBase
  split
  case h_1 => exact writes rfl
  case h_2 cppType decl =>
    have answer (excluded : Bool) : Writes context templates
        (if excluded || (context.options.skip.mentionedIn cppType).isSome then pure none
          else pure (some cppType) : Gen (Option String)) := by
      split <;> exact .pure _
    dsimp only
    split
    · split
      · exact .bind (.pure true) answer
      · exact .bind (Writes.isInherited.skipped context _) answer
    · exact .bind (.pure false) answer

theorem requireInstantiationTo_writes (depth : Nat) {template : DeclId} {cppType : String}
    {args : List String} (spells : context.Spells template args cppType) :
    (context.requireInstantiationTo depth template cppType args).Writes context templates := by
  induction depth using Nat.strong_induction_on generalizing template cppType args with
  | h depth ih =>
      unfold requireInstantiationTo
      refine .bindKnown (admitsInstantiation_writes _ _ _) (admitsInstantiation_answers _ _ _)
        fun admitted clean => ?_
      split
      case isTrue => exact .pure none
      case isFalse agreed =>
        refine .bind .unit fun state => ?_
        split
        · exact .pure _
        · cases depth with
          | zero =>
              intro before value after _ run
              cases run
          | succ less =>
              refine .bind (.change fun _ => ⟨rfl, rfl, rfl, rfl⟩) fun _ => ?_
              dsimp only
              have finishes (base : Option String)
                  (cleanBase : ∀ spelling ∈ base, context.IsClean spelling) :
                  Writes context templates (do
                    context.synthesize template cppType args base
                    return some cppType : Gen (Option String)) :=
                .bind (synthesize_writes spells (clean (by simpa using agreed)) cleanBase)
                  fun _ => .pure _
              split
              case h_1 base derived =>
                refine .bindKnown (bindBase_writes fun same => ?_)
                  (bindBase_answers (requireInstantiationTo_answers less) base) finishes
                exact ih less less.lt_succ_self (.inl ⟨template, _, _, same ▸ derived⟩)
              case h_2 =>
                rw [pure_bind]
                exact finishes none nofun

theorem declaredBase_answers (base : Option BaseClass) :
    (context.declaredBase base).Answers fun bound =>
      ∀ spelling ∈ bound, context.IsClean spelling := by
  unfold declaredBase
  split
  · exact bindBase_answers (requireInstantiationTo_answers _) _
  · exact .pure forall_mem_none

theorem declaredBase_writes {base : Option BaseClass}
    (spells : ∀ {template cppType args}, base = some (.instantiation template cppType args) →
      context.Spells template args cppType) :
    (context.declaredBase base).Writes context templates := by
  unfold declaredBase
  split
  · exact bindBase_writes fun same => requireInstantiationTo_writes _ (spells (same ▸ rfl))
  · exact .pure none

theorem ensureInstantiation_writes (type : TypeId) :
    (context.ensureInstantiation type).Writes context templates := by
  unfold ensureInstantiation
  split
  case h_1 template cppType args named =>
    exact .bind (requireInstantiationTo_writes _ (.inr (.inr ⟨type, named⟩))) fun _ => .pure _
  case h_2 => exact .pure _

theorem signature_writes (function : DeclId) (inTemplate : Bool) :
    (context.signature function inTemplate).Writes context templates :=
  Writes.isInherited.signature fun _ _ _ type _ => ensureInstantiation_writes type

theorem classMembers_writes (id : DeclId) (classType : String) (inTemplate : Bool) :
    (context.classMembers id classType inTemplate).Writes context templates :=
  Writes.isInherited.classMembers fun child _ _ => signature_writes child inTemplate

end UnitContext

end Bindery
