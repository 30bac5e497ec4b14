import Bindery.Proofs.Binding.Traversal
import Bindery.Proofs.Spelling.TemplateBase

/-!
# Chains of bases

A typedef of an instantiation comes behind the instantiations that it derives from: the farthest
comes first, and each has the one before it as its base.  What has been synthesized for another
typedef is not synthesized again.
-/

set_option autoImplicit false
set_option maxRecDepth 100000

namespace Bindery

/-! ## Runs without rules -/

theorem RuleTable.lookup_empty (candidates : List String) :
    RuleTable.empty.lookup candidates = none := by
  simp [RuleTable.lookup, RuleTable.lookupExact, RuleTable.lookupPattern, RuleTable.empty]

namespace UnitContext

variable {context : UnitContext}

/-- Neither are there rules that skip something, nor did earlier units bind anything. -/
structure IsBare (context : UnitContext) : Prop where
  noRules : context.options.skip = ⟨RuleTable.empty, []⟩
  noIndex : context.index = .empty

theorem IsBare.lookup_eq_none (bare : context.IsBare) (candidates : List String) :
    context.options.skip.lookup candidates = none := by
  rw [SymbolFilter.lookup, bare.noRules, RuleTable.lookup_empty]

theorem IsBare.mentionedIn_eq_none (bare : context.IsBare) (spelling : String) :
    context.options.skip.mentionedIn spelling = none := by
  rw [SymbolFilter.mentionedIn, bare.noRules]
  rfl

theorem IsBare.run_skipped (bare : context.IsBare) (id : DeclId) (progress : Progress) :
    (context.skipped id).run progress = some (false, progress) := by
  rw [skipped, skipRule?, bare.lookup_eq_none]
  rfl

theorem IsBare.run_mentionsSkipped (bare : context.IsBare) (id : DeclId)
    (spellings : List String) (progress : Progress) :
    (context.mentionsSkipped id spellings).run progress = some (false, progress) := by
  have none : context.skippedMention? spellings = none := by
    rw [skippedMention?, List.findSome?_eq_none_iff]
    intro spelling _
    rw [bare.mentionedIn_eq_none]
    rfl
  rw [mentionsSkipped, none]
  rfl

theorem IsBare.run_admitsInstantiation (bare : context.IsBare) {template : DeclId}
    (outside : context.tree.isStd template = false) (cppType : String) (args : List String)
    (progress : Progress) :
    (context.admitsInstantiation template cppType args).run progress = some (true, progress) := by
  simp [admitsInstantiation, outside, bare.lookup_eq_none, bare.mentionedIn_eq_none]

/-- The use of a builder of this unit. -/
def localBuilder? (context : UnitContext) (builders : List (String × String))
    (instantiation : Instantiation) : Option BuilderCall :=
  (builders.lookup (context.tree.qualifiedName instantiation.template)).map fun name =>
    ⟨name, instantiation.args⟩

theorem IsBare.run_builderCall (bare : context.IsBare) (instantiation : Instantiation)
    (progress : Progress) :
    (context.builderCall instantiation.template instantiation.args).run progress =
      some (context.localBuilder? progress.unit.localBuilders instantiation, progress) := by
  have unknown : context.index.builder? (context.tree.qualifiedName instantiation.template) =
      none := by
    rw [bare.noIndex]
    rfl
  rw [builderCall, StateT.run_bind, Gen.run_unit, localBuilder?]
  cases found : progress.unit.localBuilders.lookup
      (context.tree.qualifiedName instantiation.template) with
  | some name => simp [found]
  | none => simp [found, unknown]

/-! ## Open scopes -/

/-- A namespace whose module, like those of the namespaces around it, has been made, and what is
attached to it. -/
inductive IsOpen (context : UnitContext) (unit : UnitState) : DeclId → Parent → Prop
  | root {id : DeclId} (isRoot : (context.tree.decl id).kind = .unitRoot) :
      IsOpen context unit id .global
  | named {id around : DeclId} {outer : Parent}
      (isNamespace : (context.tree.decl id).kind = .namespaceDecl)
      (hasName : hasModule (context.tree.decl id) = true)
      (inside : context.tree.semanticParent id = some around) (earlier : around < id)
      (outerOpen : IsOpen context unit around outer)
      (opened : context.tree.qualifiedName id ∈ unit.namespaces) :
      IsOpen context unit id (.module_ (context.moduleIdentifier id))
  | transparent {id around : DeclId} {outer : Parent}
      (noModule : (context.tree.decl id).kind = .linkageSpec ∨
        (context.tree.decl id).kind = .namespaceDecl ∧
          hasModule (context.tree.decl id) = false)
      (inside : context.tree.semanticParent id = some around) (earlier : around < id)
      (outerOpen : IsOpen context unit around outer) :
      IsOpen context unit id outer

variable {unit : UnitState} {id : DeclId} {parent : Parent}

theorem IsOpen.mono {later : UnitState} (isOpen : context.IsOpen unit id parent)
    (namespaces : unit.namespaces ⊆ later.namespaces) : context.IsOpen later id parent := by
  induction isOpen with
  | root isRoot => exact .root isRoot
  | named isNamespace hasName inside earlier _ opened ih =>
      exact .named isNamespace hasName inside earlier ih (namespaces opened)
  | transparent noModule inside earlier _ ih => exact .transparent noModule inside earlier ih

theorem IsOpen.run_ensureScopeTo {progress : Progress}
    (isOpen : context.IsOpen progress.unit id parent) {depth : Nat} (deep : id < depth) :
    (context.ensureScopeTo depth (some id)).run progress = some (parent, progress) := by
  induction isOpen generalizing depth with
  | root isRoot =>
      obtain ⟨less, rfl⟩ := Nat.exists_eq_add_of_lt deep
      simp [ensureScopeTo, isRoot]
  | @named id around outer isNamespace hasName inside earlier outerOpen opened ih =>
      cases depth with
      | zero => exact absurd deep (Nat.not_lt_zero id)
      | succ less =>
          have around := ih (Nat.lt_of_lt_of_le earlier (Nat.le_of_lt_succ deep))
          simp [ensureScopeTo, isNamespace, inside, around, hasName, openNamespace, opened]
  | @transparent id around outer noModule inside earlier outerOpen ih =>
      cases depth with
      | zero => exact absurd deep (Nat.not_lt_zero id)
      | succ less =>
          have around := ih (Nat.lt_of_lt_of_le earlier (Nat.le_of_lt_succ deep))
          rcases noModule with linkage | ⟨isNamespace, unnamed⟩
          · simp [ensureScopeTo, linkage, inside, around]
          · simp [ensureScopeTo, isNamespace, inside, around, unnamed]

theorem IsOpen.lt_size (isOpen : context.IsOpen unit id parent) : id < context.tree.size := by
  by_contra outside
  have absent : context.tree.decl id = Decl.make .other "" := by
    rw [DeclTree.decl, Array.getD]
    exact dif_neg outside
  cases isOpen with
  | root isRoot => simp [absent, Decl.make] at isRoot
  | named isNamespace => simp [absent, Decl.make] at isNamespace
  | transparent noModule => simp [absent, Decl.make] at noModule

theorem IsOpen.run_ensureScope {progress : Progress}
    (isOpen : context.IsOpen progress.unit id parent) :
    (context.ensureScope (some id)).run progress = some (parent, progress) :=
  isOpen.run_ensureScopeTo (Nat.lt_succ_of_lt isOpen.lt_size)

/-! ## Synthesized instantiations -/

/-- The C++ type of an instantiation. -/
def typeOf (context : UnitContext) (instantiation : Instantiation) : String :=
  instantiation.cppType context.tree

/-- The identifier of a synthesized instantiation. -/
def identifierOf (context : UnitContext) (instantiation : Instantiation) : String :=
  context.synthesizedIdentifier instantiation.template instantiation.args

/-- The fragment of a synthesized instantiation. -/
def fragmentOf (context : UnitContext) (builders : List (String × String)) (parent : Parent)
    (instantiation : Instantiation) (base : Option String) : Fragment :=
  .instantiation (context.identifierOf instantiation)
    (context.synthesizedName instantiation.template instantiation.args)
    (context.typeOf instantiation) base parent (context.localBuilder? builders instantiation)

/-- The fragments of instantiations, the nearest first, each of which has the next one as its base;
what derives from another comes behind it. -/
def chainFragments (context : UnitContext) (builders : List (String × String)) (parent : Parent)
    (known : List Instantiation) : List Instantiation → List Fragment
  | [] => []
  | base :: bases =>
      context.chainFragments builders parent known bases
        ++ [context.fragmentOf builders parent base
          ((bases ++ known).head?.map context.typeOf)]

/-- The progress after instantiations, the nearest first, have been synthesized. -/
def synthesizeChain (context : UnitContext) (parent : Parent) (known : List Instantiation)
    (progress : Progress) (fresh : List Instantiation) : Progress :=
  ⟨{ progress.unit with
      byType := progress.unit.byType ++
        fresh.reverse.map fun base => (context.typeOf base, context.identifierOf base)
      bindings := progress.unit.bindings ++
        fresh.reverse.map fun base => (context.identifierOf base, context.typeOf base)
      autoGenerated := fresh.reverse.map context.typeOf ++ progress.unit.autoGenerated
      pending := progress.unit.pending ++
        context.chainFragments progress.unit.localBuilders parent known fresh },
    progress.events ++
      fresh.reverse.map fun base =>
        .autoGenerated (context.typeOf base) (context.identifierOf base)⟩

/-- What may be synthesized: instantiations of templates in a scope that is open, under types and
identifiers that are free and differ from each other, and that no typedef names. -/
structure IsFresh (context : UnitContext) (unit : UnitState) (scope : DeclId)
    (fresh : List Instantiation) : Prop where
  inside : ∀ base ∈ fresh, context.tree.semanticParent base.template = some scope
  unnamed : ∀ base ∈ fresh,
    context.speller.registries.typedefFor? (context.typeOf base) = none
  unmade : ∀ base ∈ fresh, context.typeOf base ∉ unit.autoGenerated
  unbound : ∀ base ∈ fresh, unit.identifierFor? (context.typeOf base) = none
  free : ∀ base ∈ fresh, unit.bindings.lookup (context.identifierOf base) = none
  types : (fresh.map context.typeOf).Nodup
  identifiers : (fresh.map context.identifierOf).Nodup

theorem IsBare.isBound_eq_false (bare : context.IsBare) {unit : UnitState} {scope : DeclId}
    {base : Instantiation} {bases : List Instantiation}
    (fresh : context.IsFresh unit scope (base :: bases)) :
    context.isBound unit (context.typeOf base) = false := by
  have unnamed := fresh.unnamed base List.mem_cons_self
  have unmade := fresh.unmade base List.mem_cons_self
  have unbound := fresh.unbound base List.mem_cons_self
  have unknown : context.index.knownClass? (context.typeOf base) = none := by
    rw [bare.noIndex]
    rfl
  simp [isBound, boundIdentifier?, unnamed, unmade, unbound, unknown]

theorem register?_eq_some_of_free {unit : UnitState} {identifier cppType : String}
    (unbound : unit.identifierFor? cppType = none)
    (free : unit.bindings.lookup identifier = none) :
    unit.register? identifier cppType =
      some { unit with
        byType := unit.byType ++ [(cppType, identifier)]
        bindings := unit.bindings ++ [(identifier, cppType)] } := by
  simp [UnitState.register?, unbound, free]

theorem IsBare.run_synthesize (bare : context.IsBare) {scope : DeclId} {parent : Parent}
    {base : Instantiation} {derived : Option String} {progress : Progress}
    (isOpen : context.IsOpen progress.unit scope parent)
    (inside : context.tree.semanticParent base.template = some scope)
    (unbound : progress.unit.identifierFor? (context.typeOf base) = none)
    (free : progress.unit.bindings.lookup (context.identifierOf base) = none) :
    (context.synthesize base.template (context.typeOf base) base.args derived).run progress =
      some ((), ⟨{ progress.unit with
          byType := progress.unit.byType ++ [(context.typeOf base, context.identifierOf base)]
          bindings := progress.unit.bindings ++ [(context.identifierOf base, context.typeOf base)]
          pending := progress.unit.pending ++
            [context.fragmentOf progress.unit.localBuilders parent base derived] },
        progress.events ++
          [.autoGenerated (context.typeOf base) (context.identifierOf base)]⟩) := by
  have scopeRun : (context.ensureScope (context.tree.semanticParent base.template)).run progress =
      some (parent, progress) := by
    rw [inside]
    exact isOpen.run_ensureScope
  have bindRun := Gen.run_register (context.identifierOf base) (context.typeOf base) progress
  rw [register?_eq_some_of_free unbound free] at bindRun
  unfold synthesize
  refine (Gen.run_bind_of_eq_some scopeRun).trans ?_
  refine (Gen.run_bind_of_eq_some bindRun).trans ?_
  exact Gen.run_bind_of_eq_some (bare.run_builderCall base _)

theorem IsFresh.tail {unit : UnitState} {scope : DeclId} {base : Instantiation}
    {bases : List Instantiation} (fresh : context.IsFresh unit scope (base :: bases)) :
    context.IsFresh (unit.markGenerated (context.typeOf base)) scope bases := by
  obtain ⟨inside, unnamed, unmade, unbound, free, types, identifiers⟩ := fresh
  rw [List.map_cons, List.nodup_cons] at types identifiers
  refine ⟨fun other member => inside other (List.mem_cons_of_mem _ member),
    fun other member => unnamed other (List.mem_cons_of_mem _ member),
    fun other member => ?_,
    fun other member => unbound other (List.mem_cons_of_mem _ member),
    fun other member => free other (List.mem_cons_of_mem _ member), types.2, identifiers.2⟩
  intro made
  rcases List.mem_cons.mp made with same | before
  · exact types.1 (same ▸ List.mem_map_of_mem member)
  · exact unmade other (List.mem_cons_of_mem _ member) before

theorem lookup_append_chain {key : String} {keyOf valueOf : Instantiation → String}
    {entries : List (String × String)} {bases : List Instantiation}
    (absent : entries.lookup key = none) (new : key ∉ bases.map keyOf) :
    (entries ++ bases.reverse.map fun base => (keyOf base, valueOf base)).lookup key = none := by
  have behind : (bases.reverse.map fun base => (keyOf base, valueOf base)).lookup key = none := by
    refine List.lookup_eq_none_iff.mpr fun entry member => ?_
    obtain ⟨base, found, rfl⟩ := List.mem_map.mp member
    rw [bne_iff_ne]
    rintro rfl
    exact new (List.mem_map_of_mem (List.mem_reverse.mp found))
  rw [List.lookup_append, absent, behind]
  rfl

theorem IsBare.run_requireInstantiationTo_of_isBound (bare : context.IsBare)
    {base : Instantiation} {progress : Progress}
    (outside : context.tree.isStd base.template = false)
    (bound : context.isBound progress.unit (context.typeOf base) = true) (depth : Nat) :
    (context.requireInstantiationTo depth base.template (context.typeOf base) base.args).run
      progress = some (some (context.typeOf base), progress) := by
  have admits := bare.run_admitsInstantiation outside (context.typeOf base) base.args progress
  unfold requireInstantiationTo
  refine (Gen.run_bind_of_eq_some admits).trans ?_
  refine (Gen.run_bind_of_eq_some (Gen.run_unit progress)).trans ?_
  rw [if_pos bound]
  rfl

theorem IsBare.run_requireInstantiationTo_succ (bare : context.IsBare) {base : Instantiation}
    {derived : Option String} {depth : Nat} {progress between after : Progress}
    (outside : context.tree.isStd base.template = false)
    (unbound : context.isBound progress.unit (context.typeOf base) = false)
    (baseRun : (context.baseFor (context.requireInstantiationTo depth)
      (context.speller.instantiateBase? base.template base.args)).run
        (progress.withUnit (progress.unit.markGenerated (context.typeOf base))) =
          some (derived, between))
    (madeRun : (context.synthesize base.template (context.typeOf base) base.args derived).run
      between = some ((), after)) :
    (context.requireInstantiationTo (depth + 1) base.template (context.typeOf base) base.args).run
      progress = some (some (context.typeOf base), after) := by
  have admits := bare.run_admitsInstantiation outside (context.typeOf base) base.args progress
  unfold requireInstantiationTo
  refine (Gen.run_bind_of_eq_some admits).trans ?_
  refine (Gen.run_bind_of_eq_some (Gen.run_unit progress)).trans ?_
  rw [if_neg (Bool.eq_false_iff.mp unbound)]
  refine (Gen.run_bind_of_eq_some (Gen.run_change _ progress)).trans ?_
  cases found : context.speller.instantiateBase? base.template base.args with
  | none =>
      rw [found] at baseRun
      exact (Gen.run_bind_of_eq_some baseRun).trans (Gen.run_bind_of_eq_some madeRun)
  | some inner =>
      rw [found] at baseRun
      exact (Gen.run_bind_of_eq_some baseRun).trans (Gen.run_bind_of_eq_some madeRun)

theorem synthesizeChain_nil (parent : Parent) (known : List Instantiation) (progress : Progress) :
    context.synthesizeChain parent known progress [] = progress := by
  simp [synthesizeChain, chainFragments]

/-- A required base is synthesized behind those that it derives from in turn, up to the first that
has been made before. -/
theorem IsBare.run_baseFor (bare : context.IsBare) {scope : DeclId} {parent : Parent}
    {known fresh : List Instantiation} {derived : Instantiation} {depth : Nat}
    {progress : Progress} (isOpen : context.IsOpen progress.unit scope parent)
    (chain : context.speller.BaseChain derived (fresh ++ known))
    (outside : ∀ base ∈ fresh ++ known, context.tree.isStd base.template = false)
    (room : context.IsFresh progress.unit scope fresh)
    (met : ∀ base ∈ known.head?, context.typeOf base ∈ progress.unit.autoGenerated)
    (deep : fresh.length ≤ depth) :
    (context.baseFor (context.requireInstantiationTo depth)
      (context.speller.instantiateBase? derived.template derived.args)).run progress =
        some ((fresh ++ known).head?.map context.typeOf,
          context.synthesizeChain parent known progress fresh) := by
  -- What is fresh is made from the outside in; the first known base ends the induction.
  induction fresh generalizing derived depth progress with
  | nil =>
      rw [chain.instantiateBase?_eq, synthesizeChain_nil, List.nil_append]
      cases known with
      | nil => rfl
      | cons base bases =>
          have bound : context.isBound progress.unit (context.typeOf base) = true := by
            have made := met base rfl
            simp [isBound, made]
          exact bare.run_requireInstantiationTo_of_isBound (outside base List.mem_cons_self) bound
            depth
  | cons base bases ih =>
      cases depth with
      | zero => simp at deep
      | succ less =>
          have inner : context.speller.BaseChain base (bases ++ known) := by
            cases chain with
            | derived has inner => exact inner
          have outsideInner : ∀ other ∈ bases ++ known,
              context.tree.isStd other.template = false := fun other member =>
            outside other (List.mem_cons_of_mem _ member)
          let marked := progress.withUnit (progress.unit.markGenerated (context.typeOf base))
          have markedOpen : context.IsOpen marked.unit scope parent :=
            isOpen.mono (List.Subset.refl _)
          have metInner : ∀ other ∈ known.head?,
              context.typeOf other ∈ marked.unit.autoGenerated := fun other member =>
            List.mem_cons_of_mem _ (met other member)
          have baseRun := ih markedOpen inner outsideInner room.tail metInner
            (Nat.le_of_succ_le_succ deep)
          -- The bases farther away have been registered by now, under other names than this one.
          let between := context.synthesizeChain parent known marked bases
          have newType : context.typeOf base ∉ bases.map context.typeOf :=
            (List.nodup_cons.mp room.types).1
          have newIdentifier : context.identifierOf base ∉ bases.map context.identifierOf :=
            (List.nodup_cons.mp room.identifiers).1
          have betweenOpen : context.IsOpen between.unit scope parent :=
            isOpen.mono (List.Subset.refl _)
          have madeRun : (context.synthesize base.template (context.typeOf base) base.args
              ((bases ++ known).head?.map context.typeOf)).run between =
                some ((), context.synthesizeChain parent known progress (base :: bases)) := by
            refine (bare.run_synthesize betweenOpen (room.inside base List.mem_cons_self)
              (lookup_append_chain (room.unbound base List.mem_cons_self) newType)
              (lookup_append_chain (room.free base List.mem_cons_self) newIdentifier)).trans ?_
            simp [between, marked, synthesizeChain, chainFragments, Progress.withUnit,
              UnitState.markGenerated]
          rw [chain.instantiateBase?_eq]
          exact bare.run_requireInstantiationTo_succ (outside base List.mem_cons_self)
            (bare.isBound_eq_false room) baseRun madeRun

/-! ## Typedefs of instantiations -/

/-- A typedef in a scope that names an instantiation and that the traversal takes up. -/
structure Names (context : UnitContext) (scope typedef : DeclId) (named : Instantiation) :
    Prop where
  kind : (context.tree.decl typedef).kind = .typedefDecl ∨
    (context.tree.decl typedef).kind = .typeAlias
  accepted : context.accepts typedef = true
  inside : context.tree.semanticParent typedef = some scope
  outside : context.tree.isStd named.template = false
  underlying : ∃ type specialization,
    (context.tree.decl typedef).underlyingType = some type ∧
      context.tree.typeDeclaration type = some specialization ∧
      (context.tree.decl specialization).specializedTemplate = some named.template ∧
      context.speller.spell type = context.typeOf named
  arguments : ∀ arg ∈ named.args, Text.IsArgument arg
  plain : '<' ∉ (context.tree.qualifiedName named.template).toList

theorem Names.namedInstantiation?_eq_some {scope typedef : DeclId} {named : Instantiation}
    (names : context.Names scope typedef named) :
    context.namedInstantiation? typedef =
      some (named.template, context.typeOf named, named.args) := by
  obtain ⟨type, specialization, underlying, behind, specializes, spelled⟩ := names.underlying
  have split := Text.splitTemplate_joinArgs names.plain names.arguments ""
  rw [String.append_empty] at split
  have read := Text.templateArgs_joinArgs names.arguments
  have parts : Text.splitTemplate (context.typeOf named) =
      some (context.tree.qualifiedName named.template, Text.joinArgs named.args, "") := split
  simp [namedInstantiation?, underlying, behind, specializes, names.outside, spelled, parts, read]

theorem IsOpen.isClassTemplate_eq_false (isOpen : context.IsOpen unit id parent) :
    (context.tree.decl id).kind.isClassTemplate = false := by
  cases isOpen with
  | root isRoot => simp [isRoot, DeclKind.isClassTemplate]
  | named isNamespace => simp [isNamespace, DeclKind.isClassTemplate]
  | transparent noModule =>
      rcases noModule with linkage | ⟨isNamespace, -⟩
      · simp [linkage, DeclKind.isClassTemplate]
      · simp [isNamespace, DeclKind.isClassTemplate]

/-- The identifier that a typedef gives to what it names. -/
def typedefIdentifier (context : UnitContext) (typedef : DeclId) : String :=
  Name.classIdentifier (context.tree.qualifiedName typedef)

/-- The fragment of a typedef. -/
def typedefFragment (context : UnitContext) (builders : List (String × String)) (parent : Parent)
    (typedef : DeclId) (named : Instantiation) (base : Option String) : Fragment :=
  .instantiation (context.typedefIdentifier typedef)
    (context.options.namer.className (context.tree.decl typedef).spelling
      (context.tree.qualifiedName typedef))
    (context.typeOf named) base parent (context.localBuilder? builders named)

/-- The state in which a typedef has bound what it names. -/
def bindTypedef (context : UnitContext) (unit : UnitState) (typedef : DeclId)
    (named : Instantiation) : UnitState :=
  { unit with
    byType := unit.byType ++ [(context.typeOf named, context.typedefIdentifier typedef)]
    bindings := unit.bindings ++ [(context.typedefIdentifier typedef, context.typeOf named)] }

/-- The visit of a typedef binds what it names and then sees to the base of that. -/
theorem IsBare.run_visitTypedef_eq (bare : context.IsBare) {scope typedef : DeclId}
    {parent : Parent} {named : Instantiation} {before : Progress}
    (isOpen : context.IsOpen before.unit scope parent) (names : context.Names scope typedef named)
    (unbound : before.unit.identifierFor? (context.typeOf named) = none)
    (free : before.unit.bindings.lookup (context.typedefIdentifier typedef) = none) :
    (context.visitTypedef typedef parent).run before =
      (do
        let base ← context.declaredBase
          (context.speller.instantiateBase? named.template named.args)
        let builder ← context.builderCall named.template named.args
        return [.instantiation (context.typedefIdentifier typedef)
          (context.options.namer.className (context.tree.decl typedef).spelling
            (context.tree.qualifiedName typedef))
          (context.typeOf named) base parent builder] : Gen (List Fragment)).run
        (before.withUnit (context.bindTypedef before.unit typedef named)) := by
  have outsideTemplates : context.tree.inClassTemplate typedef = false := by
    rw [DeclTree.inClassTemplate, names.inside]
    exact isOpen.isClassTemplate_eq_false
  have bindRun := Gen.run_register (context.typedefIdentifier typedef) (context.typeOf named)
    before
  rw [register?_eq_some_of_free unbound free] at bindRun
  have stillUnbound : ¬ (before.unit.identifierFor? (context.typeOf named)).isSome := by
    rw [unbound]
    exact Bool.false_ne_true
  unfold visitTypedef
  rw [if_neg (Bool.eq_false_iff.mp outsideTemplates)]
  refine (Gen.run_bind_of_eq_some (bare.run_skipped typedef before)).trans ?_
  rw [names.namedInstantiation?_eq_some]
  refine (Gen.run_bind_of_eq_some (bare.run_skipped named.template before)).trans ?_
  refine (Gen.run_bind_of_eq_some (bare.run_mentionsSkipped typedef _ before)).trans ?_
  refine (Gen.run_bind_of_eq_some (Gen.run_unit before)).trans ?_
  rw [if_neg stillUnbound]
  exact Gen.run_bind_of_eq_some bindRun

theorem IsBare.run_visitTypedef (bare : context.IsBare) {scope typedef : DeclId}
    {parent : Parent} {named : Instantiation} {base : Option String} {before after : Progress}
    (isOpen : context.IsOpen before.unit scope parent) (names : context.Names scope typedef named)
    (unbound : before.unit.identifierFor? (context.typeOf named) = none)
    (free : before.unit.bindings.lookup (context.typedefIdentifier typedef) = none)
    (baseRun : (context.declaredBase
      (context.speller.instantiateBase? named.template named.args)).run
        (before.withUnit (context.bindTypedef before.unit typedef named)) = some (base, after)) :
    (context.visitTypedef typedef parent).run before =
      some ([context.typedefFragment after.unit.localBuilders parent typedef named base],
        after) := by
  rw [bare.run_visitTypedef_eq isOpen names unbound free, Gen.run_bind_of_eq_some baseRun]
  exact Gen.run_bind_of_eq_some (bare.run_builderCall named after)

/-- What a typedef needs in a unit: nothing has been made of the instantiations that are to be
synthesized, no typedef names them, they stand for templates with different names, and their
identifiers and that of the typedef are free and differ from each other. -/
structure HasRoom (context : UnitContext) (unit : UnitState) (typedef : DeclId)
    (named : Instantiation) (fresh : List Instantiation) : Prop where
  unnamed : ∀ base ∈ fresh,
    context.speller.registries.typedefFor? (context.typeOf base) = none
  unmade : ∀ base ∈ fresh, context.typeOf base ∉ unit.autoGenerated
  unbound : ∀ instantiation ∈ named :: fresh,
    unit.identifierFor? (context.typeOf instantiation) = none
  free : ∀ identifier ∈ context.typedefIdentifier typedef :: fresh.map context.identifierOf,
    unit.bindings.lookup identifier = none
  identifiers : (context.typedefIdentifier typedef :: fresh.map context.identifierOf).Nodup
  templates : ((named :: fresh).map fun instantiation =>
    context.tree.qualifiedName instantiation.template).Nodup

theorem typeOf_ne {first second : Instantiation}
    (differ : context.tree.qualifiedName first.template ≠
      context.tree.qualifiedName second.template)
    (plainFirst : '<' ∉ (context.tree.qualifiedName first.template).toList)
    (plainSecond : '<' ∉ (context.tree.qualifiedName second.template).toList) :
    context.typeOf first ≠ context.typeOf second := by
  intro same
  have names := congrArg (fun type => type.toList.takeWhile (· != '<')) same
  simp only [typeOf, Instantiation.cppType, String.toList_append, List.append_assoc] at names
  have angle : "<".toList = ['<'] := rfl
  rw [angle, List.singleton_append, List.singleton_append,
    Chars.takeWhile_append_angle plainFirst, Chars.takeWhile_append_angle plainSecond] at names
  exact differ (String.toList_inj.mp names)

theorem nodup_typeOf {instantiations : List Instantiation}
    (templates : (instantiations.map fun instantiation =>
      context.tree.qualifiedName instantiation.template).Nodup)
    (plain : ∀ instantiation ∈ instantiations,
      '<' ∉ (context.tree.qualifiedName instantiation.template).toList) :
    (instantiations.map context.typeOf).Nodup := by
  rw [List.Nodup, List.pairwise_map] at templates ⊢
  refine templates.imp_of_mem fun {first second} member memberSecond differ => ?_
  exact typeOf_ne differ (plain first member) (plain second memberSecond)

theorem lookup_append_singleton {key other value : String} {entries : List (String × String)}
    (absent : entries.lookup key = none) (differs : key ≠ other) :
    (entries ++ [(other, value)]).lookup key = none := by
  have behind : (key == other) = false := beq_eq_false_iff_ne.mpr differs
  simp [List.lookup_append, absent, List.lookup_cons, behind]

theorem HasRoom.isFresh {unit : UnitState} {scope typedef : DeclId} {named : Instantiation}
    {fresh : List Instantiation} (room : context.HasRoom unit typedef named fresh)
    (inside : ∀ base ∈ fresh, context.tree.semanticParent base.template = some scope)
    (plain : ∀ instantiation ∈ named :: fresh,
      '<' ∉ (context.tree.qualifiedName instantiation.template).toList) :
    context.IsFresh (context.bindTypedef unit typedef named) scope fresh := by
  have types := nodup_typeOf room.templates plain
  have identifiers := room.identifiers
  rw [List.map_cons, List.nodup_cons] at types
  rw [List.nodup_cons] at identifiers
  refine ⟨inside, room.unnamed, room.unmade, fun base member => ?_, fun base member => ?_,
    types.2, identifiers.2⟩
  · have unbound := room.unbound base (List.mem_cons_of_mem _ member)
    refine lookup_append_singleton unbound ?_
    intro same
    exact types.1 (same ▸ List.mem_map_of_mem member)
  · have found : context.identifierOf base ∈ fresh.map context.identifierOf :=
      List.mem_map_of_mem member
    refine lookup_append_singleton (room.free _ (List.mem_cons_of_mem _ found)) ?_
    intro same
    exact identifiers.1 (same ▸ found)

theorem run_visitAll_singleton {visit : DeclId → Parent → Gen (List Fragment)} {id : DeclId}
    {parent : Parent} {produced : List Fragment} {before after : Progress}
    (accepted : context.accepts id = true)
    (run : (visit id parent).run before = some (produced, after)) :
    (context.visitAll visit [id] parent).run before =
      some (after.unit.pending ++ produced, after.release) := by
  unfold visitAll
  rw [List.filter_cons_of_pos accepted, List.filter_nil]
  simp [run]

/-- A typedef comes directly behind the instantiations that it derives from, the farthest first,
each with the one before it as its base, as far as they have not been synthesized before; and all
of them count as synthesized from then on. -/
theorem base_chain_is_synthesized (depth : Nat) {scope typedef : DeclId} {parent : Parent}
    {named : Instantiation} {fresh known : List Instantiation} {before : Progress}
    (bare : context.IsBare) (isOpen : context.IsOpen before.unit scope parent)
    (names : context.Names scope typedef named)
    (chain : context.speller.BaseChain named (fresh ++ known))
    (inside : ∀ base ∈ fresh ++ known, context.tree.semanticParent base.template = some scope ∧
      context.tree.isStd base.template = false)
    (room : context.HasRoom before.unit typedef named fresh)
    (met : ∀ base ∈ known.head?, context.typeOf base ∈ before.unit.autoGenerated)
    (nothingWaits : before.unit.pending = []) (deep : fresh.length ≤ context.depth) :
    ∃ after,
      (context.visitAll (context.visitTo (depth + 1)) [typedef] parent).run before =
        some (context.chainFragments before.unit.localBuilders parent known fresh
          ++ [context.typedefFragment before.unit.localBuilders parent typedef named
            ((fresh ++ known).head?.map context.typeOf)], after) ∧
      after.unit.autoGenerated = fresh.reverse.map context.typeOf ++ before.unit.autoGenerated ∧
      after.unit.pending = [] := by
  have plain : ∀ instantiation ∈ named :: fresh,
      '<' ∉ (context.tree.qualifiedName instantiation.template).toList := by
    intro instantiation member
    rcases List.mem_cons.mp member with rfl | later
    · exact names.plain
    · exact chain.plain instantiation (List.mem_append_left _ later)
  have isFresh := room.isFresh (fun base member =>
    (inside base (List.mem_append_left _ member)).1) plain
  let bound := before.withUnit (context.bindTypedef before.unit typedef named)
  have boundOpen : context.IsOpen bound.unit scope parent := isOpen.mono (List.Subset.refl _)
  have baseRun := bare.run_baseFor boundOpen chain (fun base member => (inside base member).2)
    isFresh met deep
  have visitRun : (context.visitTo (depth + 1) typedef parent).run before =
      some ([context.typedefFragment before.unit.localBuilders parent typedef named
        ((fresh ++ known).head?.map context.typeOf)],
        context.synthesizeChain parent known bound fresh) := by
    have typedefRun := bare.run_visitTypedef isOpen names
      (room.unbound named List.mem_cons_self) (room.free _ List.mem_cons_self)
      ((congrArg (fun gen => gen.run bound) (declaredBase_eq_baseFor _)).trans baseRun)
    rcases names.kind with isTypedef | isAlias
    · rw [visitTo, isTypedef]
      exact typedefRun
    · rw [visitTo, isAlias]
      exact typedefRun
  refine ⟨(context.synthesizeChain parent known bound fresh).release, ?_, rfl, rfl⟩
  refine (run_visitAll_singleton names.accepted visitRun).trans ?_
  change some ((before.unit.pending ++ _) ++ _, _) = _
  rw [nothingWaits, List.nil_append]
  rfl

end UnitContext

/-! ## A chain with two typedefs -/

/-- A class template whose base is another one with its parameters swapped, which has a base in
turn; a second template with the same base; and a typedef of each. -/
def chainUnit : SourceUnit :=
  .ofSteps
    [.add 0 .namespaceDecl "geo",
     .classTemplate 1 "Grand" ["S"],
     .classTemplate 1 "Pair" ["A", "B"],
     .templateBase 4 2 "B",
     .classTemplate 1 "Derived" ["T", "N"],
     .templateBase 9 4 "N, T",
     .specialization 9 "int, 3",
     .named 14,
     .newTypedef .typedefDecl 1 "Derived3" 3,
     .classTemplate 1 "Other" ["U"],
     .templateBase 16 4 "3, U",
     .specialization 16 "int",
     .named 20,
     .newTypedef .typedefDecl 1 "OtherInt" 6]

/-- The context of that unit. -/
def chainContext : UnitContext :=
  .ofUnit 2 chainUnit .plain .empty "unit.hpp"

/-- The progress before its first typedef. -/
def chainStart : Progress :=
  ⟨UnitState.empty.openModule "geo" "rb_mGeo", []⟩

theorem chainContext_hasTemplateBase :
    chainContext.speller.HasTemplateBase 9 4 ["N", "T"] ∧
      chainContext.speller.HasTemplateBase 4 2 ["B"] ∧
      chainContext.speller.HasTemplateBase 16 4 ["3", "U"] := by
  refine ⟨⟨⟨12, 1, ?_, ?_, ?_, .dependent "Pair" (.inl ?_) ?_ ?_ ?_ ?_ ?_ ?_⟩, ?_, ?_⟩,
    ⟨⟨7, 0, ?_, ?_, ?_, .dependent "Grand" (.inl ?_) ?_ ?_ ?_ ?_ ?_ ?_⟩, ?_, ?_⟩,
    ⟨⟨18, 4, ?_, ?_, ?_, .dependent "Pair" (.inl ?_) ?_ ?_ ?_ ?_ ?_ ?_⟩, ?_, ?_⟩⟩ <;>
    decide +kernel

theorem chainContext_baseOf :
    (Instantiation.mk 9 ["int", "3"]).baseOf chainContext.speller.tree 4 ["N", "T"] =
        ⟨4, ["3", "int"]⟩ ∧
      (Instantiation.mk 16 ["int"]).baseOf chainContext.speller.tree 4 ["3", "U"] =
        ⟨4, ["3", "int"]⟩ ∧
      (Instantiation.mk 4 ["3", "int"]).baseOf chainContext.speller.tree 2 ["B"] =
        ⟨2, ["int"]⟩ ∧
      chainContext.speller.tree.publicBase? 2 = none := by
  refine ⟨?_, ?_, ?_, ?_⟩ <;> decide +kernel

theorem chainContext_baseChain_pair :
    chainContext.speller.BaseChain ⟨4, ["3", "int"]⟩ [⟨2, ["int"]⟩] := by
  obtain ⟨-, -, grand, last⟩ := chainContext_baseOf
  rw [← grand]
  exact .derived chainContext_hasTemplateBase.2.1 (.root last)

theorem chainContext_baseChain_derived :
    chainContext.speller.BaseChain ⟨9, ["int", "3"]⟩
      ([⟨4, ["3", "int"]⟩, ⟨2, ["int"]⟩] ++ []) := by
  have pair := chainContext_baseOf.1
  have inner := chainContext_baseChain_pair
  rw [← pair] at inner ⊢
  exact .derived chainContext_hasTemplateBase.1 inner

theorem chainContext_baseChain_other :
    chainContext.speller.BaseChain ⟨16, ["int"]⟩
      ([] ++ [⟨4, ["3", "int"]⟩, ⟨2, ["int"]⟩]) := by
  have pair := chainContext_baseOf.2.1
  have inner := chainContext_baseChain_pair
  rw [← pair] at inner ⊢
  exact .derived chainContext_hasTemplateBase.2.2 inner

theorem chainContext_isOpen {unit : UnitState} (opened : "geo" ∈ unit.namespaces) :
    chainContext.IsOpen unit 1 (.module_ "rb_mGeo") := by
  have identifier : chainContext.moduleIdentifier 1 = "rb_mGeo" := by decide +kernel
  have qualified : chainContext.tree.qualifiedName 1 = "geo" := by decide +kernel
  have inside : chainContext.tree.semanticParent 1 = some 0 := by decide +kernel
  rw [← identifier]
  refine .named ?_ ?_ inside Nat.zero_lt_one (.root ?_) (qualified ▸ opened) <;> decide +kernel

/-- The progress when the second typedef meets what the first one has left. -/
def chainLater : Progress :=
  ⟨{ chainStart.unit with autoGenerated := ["geo::Grand<int>", "geo::Pair<3, int>"] }, []⟩

theorem derived_chain_is_synthesized :
    (∃ after,
      (chainContext.visitAll (chainContext.visitTo 1) [15] (.module_ "rb_mGeo")).run chainStart =
        some ([.instantiation "rb_cGeoGrandInt" "GrandInt" "geo::Grand<int>" none
            (.module_ "rb_mGeo") none,
          .instantiation "rb_cGeoPair3Int" "Pair3Int" "geo::Pair<3, int>"
            (some "geo::Grand<int>") (.module_ "rb_mGeo") none,
          .instantiation "rb_cGeoDerived3" "Derived3" "geo::Derived<int, 3>"
            (some "geo::Pair<3, int>") (.module_ "rb_mGeo") none], after) ∧
        after.unit.autoGenerated = chainLater.unit.autoGenerated) ∧
    ∃ after,
      (chainContext.visitAll (chainContext.visitTo 1) [21] (.module_ "rb_mGeo")).run chainLater =
        some ([.instantiation "rb_cGeoOtherInt" "OtherInt" "geo::Other<int>"
          (some "geo::Pair<3, int>") (.module_ "rb_mGeo") none], after) := by
  constructor
  · have names : chainContext.Names 1 15 ⟨9, ["int", "3"]⟩ := by
      refine ⟨.inl ?_, ?_, ?_, ?_, ⟨3, 14, ?_, ?_, ?_, ?_⟩, ?_, ?_⟩ <;> decide +kernel
    have room : chainContext.HasRoom chainStart.unit 15 ⟨9, ["int", "3"]⟩
        [⟨4, ["3", "int"]⟩, ⟨2, ["int"]⟩] := by
      constructor <;> decide +kernel
    obtain ⟨after, run, generated, -⟩ := UnitContext.base_chain_is_synthesized 0 ⟨rfl, rfl⟩
      (chainContext_isOpen List.mem_cons_self) names chainContext_baseChain_derived
      (by decide +kernel) room nofun rfl (by decide)
    refine ⟨after, run.trans (congrArg (fun fragments => some (fragments, after)) ?_),
      generated.trans ?_⟩ <;> decide +kernel
  · have names : chainContext.Names 1 21 ⟨16, ["int"]⟩ := by
      refine ⟨.inl ?_, ?_, ?_, ?_, ⟨6, 20, ?_, ?_, ?_, ?_⟩, ?_, ?_⟩ <;> decide +kernel
    have room : chainContext.HasRoom chainLater.unit 21 ⟨16, ["int"]⟩ [] := by
      constructor <;> decide +kernel
    obtain ⟨after, run, -⟩ := UnitContext.base_chain_is_synthesized 0 ⟨rfl, rfl⟩
      (chainContext_isOpen List.mem_cons_self) names chainContext_baseChain_other
      (by decide +kernel) room (by decide +kernel) rfl (by decide)
    refine ⟨after, run.trans (congrArg (fun fragments => some (fragments, after)) ?_)⟩
    decide +kernel

end Bindery
