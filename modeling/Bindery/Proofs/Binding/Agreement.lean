import Bindery.Proofs.Binding.Idle
import Bindery.Proofs.Binding.Termination
import Bindery.Proofs.Spelling.Agreement

/-!
# Steps upon another tree

Each step of generation does the same upon a tree that agrees with its own on a region, as long as it
keeps to the region and binds no instantiation of a class template that has moved.
-/

set_option autoImplicit false

namespace Bindery

theorem mapM_congr {α β : Type} {m : Type → Type} [Monad m] [LawfulMonad m] {values : List α}
    {first second : α → m β} (same : ∀ value ∈ values, first value = second value) :
    values.mapM first = values.mapM second := by
  induction values with
  | nil => rfl
  | cons value values ih =>
      obtain ⟨here, later⟩ := List.forall_mem_cons.mp same
      rw [List.mapM_cons, List.mapM_cons, here, ih later]

theorem forM_congr {α : Type} {m : Type → Type} [Monad m] [LawfulMonad m] {values : List α}
    {first second : α → m PUnit} (same : ∀ value ∈ values, first value = second value) :
    values.forM first = values.forM second := by
  induction values with
  | nil => rfl
  | cons value values ih =>
      obtain ⟨here, later⟩ := List.forall_mem_cons.mp same
      change (first value >>= fun _ => values.forM first) =
        second value >>= fun _ => values.forM second
      rw [here, ih later]

theorem any_congr {α : Type} {values : List α} {first second : α → Bool}
    (same : ∀ value ∈ values, first value = second value) :
    values.any first = values.any second := by
  induction values with
  | nil => rfl
  | cons value values ih =>
      obtain ⟨here, later⟩ := List.forall_mem_cons.mp same
      rw [List.any_cons, List.any_cons, here, ih later]

namespace UnitContext

/-- The context of a traversal that finds its declarations in another tree, with the names of its
overloads. -/
def upon (context : UnitContext) (tree : DeclTree) (overloads : List String) : UnitContext :=
  { context with speller := context.speller.upon tree, overloads }

section

variable (context : UnitContext) (tree : DeclTree) (overloads : List String)

@[simp] theorem upon_tree : (context.upon tree overloads).tree = tree :=
  rfl

@[simp] theorem upon_speller :
    (context.upon tree overloads).speller = context.speller.upon tree :=
  rfl

@[simp] theorem upon_options : (context.upon tree overloads).options = context.options :=
  rfl

@[simp] theorem upon_index : (context.upon tree overloads).index = context.index :=
  rfl

@[simp] theorem upon_boundIdentifier? :
    (context.upon tree overloads).boundIdentifier? = context.boundIdentifier? :=
  rfl

@[simp] theorem upon_isBound : (context.upon tree overloads).isBound = context.isBound :=
  rfl

@[simp] theorem upon_skippedMention? :
    (context.upon tree overloads).skippedMention? = context.skippedMention? :=
  rfl

end

/-- Whether a traversal finds in another tree what it finds in its own: the trees agree on a region,
a function that takes part is overloaded in both or in neither, and the modules around a declaration
that stays in its scope are made alike. -/
structure CarriesOver (context : UnitContext) (other : DeclTree) (names : List String)
    (region : DeclTree.Region) : Prop where
  alike : context.tree.NamesAlike other region
  overloads : ∀ {id : DeclId}, region.decls id → context.accepts id = true →
    ((context.tree.decl id).kind = .method ∨ (context.tree.decl id).kind = .functionDecl) →
    (context.upon other names).overloaded id = context.overloaded id
  scopes : ∀ {id : DeclId}, region.decls id → context.tree.Stays other id →
    (context.upon other names).ensureScope (other.semanticParent id) =
      context.ensureScope (context.tree.semanticParent id)

/-! ## Rules -/

section Rules

variable {context : UnitContext} {other : DeclTree} {names : List String} {region : DeclTree.Region}
  (agrees : context.tree.Agrees other region) {id : DeclId} (known : region.decls id)
include agrees known

theorem upon_accepts : (context.upon other names).accepts id = context.accepts id := by
  simp only [accepts, upon_tree, DeclTree.isInFile, agrees.kind_eq known,
    agrees.location_eq known, agrees.access_eq known, agrees.has_eq known]
  rfl

omit agrees known in
theorem isOverload_eq {tree : DeclTree} (agrees : tree.Agrees other region)
    (known : region.decls id) (unitFile : String) :
    isOverload other unitFile id = isOverload tree unitFile id := by
  simp only [isOverload, DeclTree.isInFile, agrees.kind_eq known, agrees.access_eq known,
    agrees.has_eq known, agrees.location_eq known]

theorem upon_skipRule? : (context.upon other names).skipRule? id = context.skipRule? id := by
  rw [skipRule?, skipRule?, upon_tree, upon_options, agrees.qualifiedName_eq known,
    agrees.spelling_eq known]

theorem upon_skipped : (context.upon other names).skipped id = context.skipped id := by
  rw [skipped, skipped, upon_skipRule? agrees known, upon_tree, agrees.qualifiedName_eq known]

theorem upon_mentionsSkipped (spellings : List String) :
    (context.upon other names).mentionsSkipped id spellings =
      context.mentionsSkipped id spellings := by
  rw [mentionsSkipped, mentionsSkipped, upon_skippedMention?, upon_tree,
    agrees.qualifiedName_eq known]

theorem upon_isExported : (context.upon other names).isExported id = context.isExported id := by
  have member : isMember other id = isMember context.tree id :=
    @DeclTree.Agrees.any_parent_eq _ _ _ agrees _ known
      (fun kind => kind.isRecord || kind.isClassTemplate) rfl rfl
  simp only [isExported, upon_tree, upon_options, member, agrees.extent_eq known]

theorem upon_exported : (context.upon other names).exported id = context.exported id := by
  rw [exported, exported, upon_isExported agrees known, upon_tree, agrees.qualifiedName_eq known]

theorem upon_moduleIdentifier :
    (context.upon other names).moduleIdentifier id = context.moduleIdentifier id := by
  rw [moduleIdentifier, moduleIdentifier, upon_tree, agrees.qualifiedName_eq known]

theorem upon_openNamespace (parent : Parent) :
    (context.upon other names).openNamespace id parent = context.openNamespace id parent := by
  simp only [openNamespace, upon_tree, upon_options, agrees.qualifiedName_eq known,
    agrees.spelling_eq known, upon_moduleIdentifier agrees known]

theorem upon_admitsInstantiation (cppType : String) (args : List String) :
    (context.upon other names).admitsInstantiation id cppType args =
      context.admitsInstantiation id cppType args := by
  simp only [admitsInstantiation, upon_tree, upon_options, agrees.isStd_eq known,
    agrees.spelling_eq known]

theorem upon_builderCall (args : List String) :
    (context.upon other names).builderCall id args = context.builderCall id args := by
  simp only [builderCall, upon_tree, upon_index, agrees.qualifiedName_eq known]

theorem upon_synthesizedName (args : List String) :
    (context.upon other names).synthesizedName id args = context.synthesizedName id args := by
  rw [synthesizedName, synthesizedName, upon_tree, upon_options, agrees.qualifiedName_eq known,
    agrees.spelling_eq known]

theorem upon_synthesizedIdentifier (stays : context.tree.Stays other id) (args : List String) :
    (context.upon other names).synthesizedIdentifier id args =
      context.synthesizedIdentifier id args := by
  simp only [synthesizedIdentifier, upon_tree, agrees.parentName_eq stays,
    upon_synthesizedName agrees known]

/-- One step up through the scopes does the same if the way goes on alike. -/
theorem upon_ensureScopeTo_succ {depth more : Nat}
    (around : (context.upon other names).ensureScopeTo more (other.semanticParent id) =
      context.ensureScopeTo depth (context.tree.semanticParent id)) :
    (context.upon other names).ensureScopeTo (more + 1) (some id) =
      context.ensureScopeTo (depth + 1) (some id) := by
  have sameModule : hasModule (other.decl id) = hasModule (context.tree.decl id) :=
    agrees.told_eq (fun _ => rfl) known
  rw [ensureScopeTo, ensureScopeTo]
  simp only [upon_tree, agrees.kind_eq known, around, sameModule, upon_openNamespace agrees known,
    upon_moduleIdentifier agrees known, upon_boundIdentifier?, agrees.qualifiedName_eq known]

end Rules

/-! ## Instantiations -/

/-- Whether no instantiation of a class template that moves has to be synthesized for the sake of a
base. -/
def Spares (context : UnitContext) (wrapped : DeclTree) (unit : UnitState) (base : BaseClass) :
    Prop :=
  ∀ template cppType args, context.Reaches unit base (.instantiation template cppType args) →
    context.tree.Stays wrapped template

theorem Reaches.of_later {context : UnitContext} {unit later : UnitState} {base reached : BaseClass}
    (reaches : context.Reaches later base reached)
    (bound : ∀ cppType, context.isBound unit cppType = true →
      context.isBound later cppType = true) : context.Reaches unit base reached := by
  have still : ∀ {unit later : UnitState} {base : BaseClass},
      (∀ cppType, context.isBound unit cppType = true → context.isBound later cppType = true) →
      context.isMissing later base = true → context.isMissing unit base = true := by
    intro unit later base bound missing
    cases base with
    | plain => cases missing
    | instantiation template cppType args =>
        obtain ⟨admitted, unbound⟩ := Bool.and_eq_true_iff.mp missing
        refine Bool.and_eq_true_iff.mpr ⟨admitted, ?_⟩
        cases known : context.isBound unit cppType with
        | false => rfl
        | true => exact absurd unbound (by simp [bound cppType known])
  induction reaches generalizing unit with
  | self missing => exact .self (still bound missing)
  | @further later template cppType args base reached missing derived _ ih =>
      refine .further (still bound missing) derived (ih fun other known => ?_)
      rw [isBound_markGenerated, Bool.or_eq_true] at known ⊢
      exact known.imp id (bound other)

theorem Spares.of_empty {context : UnitContext} {wrapped : DeclTree} {base : BaseClass}
    (spares : context.Spares wrapped .empty base) (unit : UnitState) :
    context.Spares wrapped unit base :=
  fun template cppType args reaches =>
    spares template cppType args (reaches.of_later fun _ bound => isBound_of_empty bound)

/-- An instantiation that derives from nothing spares the class templates that move if its own
stays. -/
theorem Spares.of_underived {context : UnitContext} {wrapped : DeclTree} {unit : UnitState}
    {template : DeclId} {cppType : String} {args : List String}
    (stays : context.tree.Stays wrapped template)
    (underived : context.speller.instantiateBase? template args = none) :
    context.Spares wrapped unit (.instantiation template cppType args) := by
  intro reached reachedType reachedArgs reaches
  cases reaches with
  | self => exact stays
  | further _ derived _ => cases underived.symm.trans derived

section Instantiations

variable {context : UnitContext} {other : DeclTree} {names : List String} {region : DeclTree.Region}
  (carries : context.CarriesOver other names region)
include carries

/-- An instantiation of a class template that stays in its scope is synthesized in the same way. -/
theorem upon_synthesize {template : DeclId} (whole : region.wholes template)
    (stays : context.tree.Stays other template) (cppType : String) (args : List String)
    (base : Option String) :
    (context.upon other names).synthesize template cppType args base =
      context.synthesize template cppType args base := by
  have agrees := carries.alike.toAgrees
  have known := agrees.closed.decl whole
  simp only [synthesize, upon_tree, carries.scopes known stays,
    upon_synthesizedIdentifier agrees known stays, upon_builderCall agrees known,
    upon_synthesizedName agrees known]

theorem upon_bindBase_plain
    (require otherRequire : DeclId → String → List String → Gen (Option String))
    (cppType : String) {decl : Option DeclId} (inside : ∀ id, decl = some id → region.decls id) :
    (context.upon other names).bindBase otherRequire (.plain cppType decl) =
      context.bindBase require (.plain cppType decl) := by
  cases decl with
  | none => rfl
  | some id =>
      have known := inside id rfl
      simp only [bindBase, upon_tree, upon_options, carries.alike.isStd_eq known,
        upon_skipped carries.alike.toAgrees known]
      rfl

/-- An instantiation is seen to in the same way, its own base first. -/
theorem upon_requireInstantiationTo (depth : Nat) {template : DeclId} {cppType : String}
    {args : List String} (whole : region.wholes template) {progress : Progress}
    (spares : context.Spares other progress.unit (.instantiation template cppType args)) :
    ((context.upon other names).requireInstantiationTo depth template cppType args).run progress =
      (context.requireInstantiationTo depth template cppType args).run progress := by
  have agrees := carries.alike.toAgrees
  induction depth generalizing template cppType args progress with
  | zero =>
      unfold requireInstantiationTo
      rw [upon_admitsInstantiation agrees (agrees.closed.decl whole), upon_isBound]
  | succ depth ih =>
      obtain ⟨events, admitsRun⟩ := context.run_admitsInstantiation template cppType args progress
      unfold requireInstantiationTo
      rw [upon_admitsInstantiation agrees (agrees.closed.decl whole),
        Gen.run_bind_of_eq_some admitsRun, Gen.run_bind_of_eq_some admitsRun]
      cases admitted : context.admits template cppType args with
      | false => rw [Bool.not_false, if_pos rfl, if_pos rfl]
      | true =>
          rw [Bool.not_true, if_neg Bool.false_ne_true, if_neg Bool.false_ne_true,
            Gen.run_bind_of_eq_some (Gen.run_unit _), Gen.run_bind_of_eq_some (Gen.run_unit _),
            upon_isBound]
          cases bound : context.isBound (progress.report events).unit cppType with
          | true => rw [if_pos rfl, if_pos rfl]
          | false =>
              have unbound : context.isBound progress.unit cppType = false := bound
              have missing : context.isMissing progress.unit
                  (.instantiation template cppType args) = true := by
                simp [isMissing, admitted, unbound]
              have stays := spares template cppType args (.self missing)
              rw [if_neg Bool.false_ne_true, if_neg Bool.false_ne_true]
              dsimp only
              rw [Gen.run_bind_of_eq_some (Gen.run_change _ _),
                Gen.run_bind_of_eq_some (Gen.run_change _ _), upon_speller,
                agrees.instantiateBase?_eq whole]
              have made : ∀ base,
                  (context.upon other names).synthesize template cppType args base =
                    context.synthesize template cppType args base :=
                upon_synthesize carries whole stays cppType args
              cases derived : context.speller.instantiateBase? template args with
              | none => simp only [made]
              | some base =>
                  have inside := agrees.isInside_of_resolveBase? derived
                  refine Gen.run_bind_congr ?_ (funext fun base => by rw [made])
                  cases base with
                  | plain cppType decl => rw [upon_bindBase_plain carries _ _ cppType inside]
                  | instantiation next nextType nextArgs =>
                      refine ih inside fun last lastType lastArgs reaches => ?_
                      exact spares last lastType lastArgs (.further missing derived reaches)

/-- A base is declared in the same way if it can be bound without a class template that moves. -/
theorem upon_declaredBase {base : Option BaseClass}
    (inside : ∀ wanted ∈ base.toList, wanted.IsInside region)
    (spares : ∀ wanted ∈ base.toList, context.Spares other .empty wanted) :
    (context.upon other names).declaredBase base = context.declaredBase base := by
  cases base with
  | none => rfl
  | some wanted =>
      have inRegion := inside wanted List.mem_cons_self
      have spared := spares wanted List.mem_cons_self
      cases wanted with
      | plain cppType decl =>
          exact upon_bindBase_plain carries context.requireInstantiation
            (context.upon other names).requireInstantiation cppType inRegion
      | instantiation template cppType args =>
          refine StateT.ext fun progress => ?_
          exact upon_requireInstantiationTo carries context.depth inRegion
            (spared.of_empty progress.unit)

omit carries in
theorem types_passedType (closed : region.IsClosed context.tree) {type : TypeId}
    (known : region.types type) : region.types (passedType context.tree type) := by
  have value := closed.nonReference known
  unfold passedType
  dsimp only
  split
  · cases points : (context.tree.type (context.tree.nonReference type)).pointee with
    | none => exact value
    | some pointee => exact closed.pointee value points
  · exact value

theorem upon_unnamedInstantiation? {type : TypeId} (known : region.types type) :
    (context.upon other names).unnamedInstantiation? type =
      context.unnamedInstantiation? type := by
  have alike := carries.alike
  have passed : passedType other type = passedType context.tree type := by
    simp only [passedType, alike.nonReference_eq known,
      alike.type_eq (alike.closed.nonReference known)]
  have knownPassed := types_passedType alike.closed known
  unfold unnamedInstantiation?
  dsimp only [upon_tree, upon_speller]
  rw [passed, alike.typeDeclaration_eq knownPassed, alike.canonicalSpelling_eq knownPassed,
    alike.spell_eq knownPassed]
  cases declared : context.tree.typeDeclaration (passedType context.tree type) with
  | none => rfl
  | some id =>
      dsimp only [Option.bind_eq_bind, Option.bind_some]
      rw [alike.specializedTemplate_eq (alike.closed.typeDeclaration declared)]
      rfl

omit carries in
theorem whole_of_unnamedInstantiation? (closed : region.IsClosed context.tree) {type : TypeId}
    {template : DeclId} {cppType : String} {args : List String}
    (unnamed : context.unnamedInstantiation? type = some (template, cppType, args)) :
    region.wholes template := by
  unfold unnamedInstantiation? at unnamed
  obtain ⟨id, -, specialized⟩ := Option.bind_eq_some_iff.mp unnamed
  obtain ⟨found, isTemplate, rest⟩ := Option.bind_eq_some_iff.mp specialized
  have same : found = template := by
    dsimp only at rest
    split at rest
    · cases rest
    · obtain ⟨parts, -, made⟩ := Option.bind_eq_some_iff.mp rest
      exact (Prod.mk.inj (Option.some.inj made)).1
  subst same
  exact closed.specializes isTemplate

theorem upon_ensureInstantiation {type : TypeId} (known : region.types type)
    (spares : ∀ template cppType args,
      context.unnamedInstantiation? type = some (template, cppType, args) →
        context.Spares other .empty (.instantiation template cppType args)) :
    (context.upon other names).ensureInstantiation type = context.ensureInstantiation type := by
  unfold ensureInstantiation
  rw [upon_unnamedInstantiation? carries known]
  split
  · rename_i template cppType args unnamed
    have same : (context.upon other names).requireInstantiation template cppType args =
        context.requireInstantiation template cppType args := StateT.ext fun progress =>
      upon_requireInstantiationTo carries context.depth
        (whole_of_unnamedInstantiation? carries.alike.closed unnamed)
        ((spares _ _ _ unnamed).of_empty progress.unit)
    rw [same]
  · rfl

end Instantiations

/-! ## Members -/

section Members

variable {context : UnitContext} {other : DeclTree} {names : List String} {region : DeclTree.Region}
  (carries : context.CarriesOver other names region)
include carries

theorem upon_argument (place : Nat) {param : DeclId} (whole : region.wholes param) {type : TypeId}
    (known : region.types type) :
    (context.upon other names).argument place param type = context.argument place param type := by
  simp only [argument, upon_tree, upon_speller,
    carries.alike.spelling_eq (carries.alike.closed.decl whole),
    carries.alike.defaultValue?_eq whole, carries.alike.spellValue_eq known]

theorem upon_readParameter {param : DeclId} (whole : region.wholes param) (place : Nat) :
    (context.upon other names).readParameter param place = context.readParameter param place := by
  have alike := carries.alike
  unfold readParameter
  rw [upon_tree, alike.declType_eq (alike.closed.decl whole)]
  cases told : (context.tree.decl param).type with
  | none => rfl
  | some type =>
      have known := alike.closed.typed (Decl.mem_types_of_type told)
      simp only [alike.type_eq known, upon_argument carries place whole known]

omit carries in
/-- The types of parameters that are read are those that they tell of. -/
theorem types_of_readParameters (closed : region.IsClosed context.tree)
    {params : List (DeclId × Nat)} {read : List (TypeId × Argument)}
    (reads : params.mapM (fun param => context.readParameter param.1 param.2) = .ok read) :
    ∀ entry ∈ read, region.types entry.1 := by
  induction params generalizing read with
  | nil =>
      cases reads
      exact nofun
  | cons param params ih =>
      rw [List.mapM_cons] at reads
      cases first : context.readParameter param.1 param.2 with
      | error refusal =>
          rw [first] at reads
          cases reads
      | ok found =>
          cases others : params.mapM fun param => context.readParameter param.1 param.2 with
          | error refusal =>
              rw [first, others] at reads
              cases reads
          | ok behind =>
              rw [first, others] at reads
              cases reads
              refine List.forall_mem_cons.mpr ⟨?_, ih others⟩
              unfold readParameter at first
              split at first
              case h_1 => cases first
              case h_2 type told =>
                split at first
                case isTrue => cases first
                case isFalse =>
                  cases first
                  exact closed.typed (Decl.mem_types_of_type told)

omit carries in
theorem types_of_readSignature (closed : region.IsClosed context.tree) {function : DeclId}
    {signature : Signature} (reads : context.readSignature function = .ok signature) :
    ∀ type ∈ signature.typeIds, region.types type := by
  unfold readSignature at reads
  dsimp only at reads
  split at reads
  case isTrue => cases reads
  case isFalse =>
    cases params : (context.tree.parameters function).zipIdx.mapM fun param =>
        context.readParameter param.1 param.2 with
    | error refusal =>
        rw [params] at reads
        cases reads
    | ok read =>
        rw [params] at reads
        cases reads
        refine List.forall_mem_append.mpr
          ⟨List.forall_mem_map.mpr (types_of_readParameters closed params), fun type told => ?_⟩
        exact closed.typed (Decl.mem_types_of_resultType (Option.mem_toList.mp told))

section Functions

variable {function : DeclId} (whole : region.wholes function)
include whole

theorem upon_readSignature :
    (context.upon other names).readSignature function = context.readSignature function := by
  have alike := carries.alike
  have params : ((context.tree.parameters function).zipIdx.mapM fun param =>
        (context.upon other names).readParameter param.1 param.2) =
      (context.tree.parameters function).zipIdx.mapM fun param =>
        context.readParameter param.1 param.2 := by
    refine mapM_congr fun (param, place) member => ?_
    exact upon_readParameter carries
      (alike.closed.whole_of_parameter (List.fst_mem_of_mem_zipIdx member)) place
  have known := alike.closed.decl whole
  unfold readSignature
  simp only [upon_tree, upon_speller, alike.parameters_eq whole, params, alike.has_eq known,
    alike.resultType_eq known]
  split
  · rfl
  · cases reads : (context.tree.parameters function).zipIdx.mapM fun param =>
        context.readParameter param.1 param.2 with
    | error refusal => rfl
    | ok read =>
        have spelled : (read.map (·.1)).map (context.speller.upon other).spell =
            (read.map (·.1)).map context.speller.spell :=
          List.map_congr_left fun type member => alike.spell_eq
            (List.forall_mem_map.mpr (types_of_readParameters alike.closed reads) type member)
        change Except.ok _ = Except.ok _
        rw [spelled]

/-- A signature is read in the same way if the instantiations in it spare the class templates that
move; in a template they are not bound. -/
theorem upon_signature {inTemplate : Bool}
    (spares : inTemplate = false → ∀ base ∈ context.signatureBases function,
      context.Spares other .empty base) :
    (context.upon other names).signature function inTemplate =
      context.signature function inTemplate := by
  have alike := carries.alike
  have known := alike.closed.decl whole
  have result : (context.tree.decl function).resultType.toList.map
        (context.speller.upon other).spell =
      (context.tree.decl function).resultType.toList.map context.speller.spell :=
    List.map_congr_left fun type told => alike.spell_eq
      (alike.closed.typed (Decl.mem_types_of_resultType (Option.mem_toList.mp told)))
  unfold signature
  rw [upon_readSignature carries whole]
  split
  · simp only [upon_tree, alike.qualifiedName_eq known]
  · rename_i signature readable
    have ensured : inTemplate = false →
        signature.typeIds.forM (context.upon other names).ensureInstantiation =
          signature.typeIds.forM context.ensureInstantiation := by
      intro outside
      refine forM_congr fun type member => ?_
      refine upon_ensureInstantiation carries (types_of_readSignature alike.closed readable _ member)
        fun template cppType args unnamed => spares outside _ ?_
      rw [signatureBases, readable]
      exact List.mem_filterMap.mpr ⟨type, member, by rw [unnamed]; rfl⟩
    dsimp only
    rw [upon_tree, upon_speller, alike.resultType_eq known, result,
      upon_mentionsSkipped alike.toAgrees known]
    refine bind_congr fun mentions => ?_
    cases inTemplate with
    | true => simp only [Bool.not_true, if_neg Bool.false_ne_true]
    | false => simp only [ensured rfl]

omit whole in
theorem upon_returnsBuffer (known : region.decls function) :
    (context.upon other names).returnsBuffer function = context.returnsBuffer function := by
  have alike := carries.alike
  have canonicalType {type : TypeId} (knownType : region.types type) :
      other.type (other.canonical type) = context.tree.type (context.tree.canonical type) := by
    rw [alike.canonical_eq knownType, alike.type_eq (alike.closed.canonical knownType)]
  unfold returnsBuffer
  dsimp only
  rw [upon_tree, alike.resultType_eq known]
  cases told : (context.tree.decl function).resultType with
  | none => rfl
  | some result =>
      have knownResult := alike.closed.typed (Decl.mem_types_of_resultType told)
      rw [Option.map_some, Option.map_some, Option.any_some, Option.any_some,
        canonicalType knownResult]
      cases points : (context.tree.type (context.tree.canonical result)).pointee with
      | none => rfl
      | some pointee =>
          have knownPointee := alike.closed.pointee (alike.closed.canonical knownResult) points
          rw [Option.map_some, Option.map_some, canonicalType knownPointee]

theorem upon_methodShape :
    (context.upon other names).methodShape function = context.methodShape function := by
  have alike := carries.alike
  have known := alike.closed.decl whole
  have result : (context.tree.decl function).resultType.map other.canonicalSpelling =
      (context.tree.decl function).resultType.map context.tree.canonicalSpelling :=
    Option.map_congr fun type told =>
      alike.canonicalSpelling_eq (alike.closed.typed (Decl.mem_types_of_resultType told))
  simp only [methodShape, upon_tree, alike.spelling_eq known, alike.resultType_eq known,
    alike.parameters_eq whole, result]

theorem upon_methodName? :
    (context.upon other names).methodName? function = context.methodName? function := by
  have alike := carries.alike
  have known := alike.closed.decl whole
  simp only [methodName?, upon_tree, upon_options, alike.spelling_eq known,
    alike.parameters_eq whole, upon_methodShape carries whole, alike.qualifiedName_eq known]

omit whole in
theorem upon_indexSetter? (known : region.decls function) (classType : String)
    (params : List String) :
    (context.upon other names).indexSetter? function classType params =
      context.indexSetter? function classType params := by
  have alike := carries.alike
  unfold indexSetter?
  dsimp only [upon_tree, upon_speller]
  rw [alike.resultType_eq known, alike.has_eq known]
  cases told : (context.tree.decl function).resultType with
  | none => rfl
  | some result =>
      have knownResult := alike.closed.typed (Decl.mem_types_of_resultType told)
      dsimp only [Option.bind_eq_bind, Option.bind_some]
      rw [alike.type_eq knownResult]
      refine if_congr Iff.rfl rfl ?_
      cases points : (context.tree.type result).pointee with
      | none => rfl
      | some element =>
          have knownElement := alike.closed.pointee knownResult points
          dsimp only [Option.bind_some]
          rw [alike.type_eq knownElement, alike.spell_eq knownElement]

section Methods

variable (accepted : context.accepts function = true)
  (isMethod : (context.tree.decl function).kind = .method)
include accepted isMethod

theorem upon_explicitSignature? (classType : String) :
    (context.upon other names).explicitSignature? function classType =
      context.explicitSignature? function classType := by
  have known := carries.alike.closed.decl whole
  simp only [explicitSignature?, upon_tree, upon_speller,
    carries.overloads known accepted (.inl isMethod), carries.alike.has_eq known,
    carries.alike.functionSignature_eq whole, carries.alike.methodSignature_eq whole classType]

theorem upon_methodMembers (classType name : String) (signature : Signature) :
    (context.upon other names).methodMembers function classType name signature =
      context.methodMembers function classType name signature := by
  have known := carries.alike.closed.decl whole
  simp only [methodMembers, upon_tree, carries.alike.spelling_eq known,
    carries.alike.has_eq known, upon_explicitSignature? carries whole accepted isMethod,
    upon_returnsBuffer carries known, upon_indexSetter? carries known]

end Methods

section Signatures

variable {inTemplate : Bool}
  (spares : inTemplate = false → ∀ base ∈ context.signatureBases function,
    context.Spares other .empty base)
include spares

theorem upon_constructorMember :
    (context.upon other names).constructorMember function inTemplate =
      context.constructorMember function inTemplate := by
  simp only [constructorMember, upon_tree,
    carries.alike.has_eq (carries.alike.closed.decl whole), upon_signature carries whole spares]

theorem upon_methodMember (accepted : context.accepts function = true)
    (isMethod : (context.tree.decl function).kind = .method) (classType : String) :
    (context.upon other names).methodMember function classType inTemplate =
      context.methodMember function classType inTemplate := by
  have known := carries.alike.closed.decl whole
  simp only [methodMember, upon_skipped carries.alike.toAgrees known,
    upon_methodName? carries whole, upon_signature carries whole spares,
    upon_methodMembers carries whole accepted isMethod]

theorem upon_conversionMember (classType : String) :
    (context.upon other names).conversionMember function classType inTemplate =
      context.conversionMember function classType inTemplate := by
  have alike := carries.alike
  have known := alike.closed.decl whole
  unfold conversionMember
  rw [upon_skipped alike.toAgrees known, upon_tree, upon_speller, alike.resultType_eq known]
  refine bind_congr fun skipped => if_congr Iff.rfl rfl ?_
  cases told : (context.tree.decl function).resultType with
  | none => rfl
  | some result =>
      have knownResult := alike.closed.typed (Decl.mem_types_of_resultType told)
      simp only [alike.spell_eq knownResult, upon_signature carries whole spares]

end Signatures

end Functions

section Data

variable {id : DeclId} (known : region.decls id) (classType : String)
include known

theorem upon_fieldMember :
    (context.upon other names).fieldMember id classType = context.fieldMember id classType := by
  have alike := carries.alike
  unfold fieldMember
  dsimp only
  rw [upon_tree, upon_speller, upon_options, upon_skipped alike.toAgrees known,
    alike.anonymous_eq known, alike.declType_eq known, alike.spelling_eq known,
    alike.qualifiedName_eq known]
  refine if_congr Iff.rfl rfl (bind_congr fun skipped => if_congr Iff.rfl rfl ?_)
  cases told : (context.tree.decl id).type with
  | none => rfl
  | some type =>
      have knownType := alike.closed.typed (Decl.mem_types_of_type told)
      simp only [alike.spell_eq knownType, upon_mentionsSkipped alike.toAgrees known,
        alike.type_eq knownType]

theorem upon_staticMember :
    (context.upon other names).staticMember id classType = context.staticMember id classType := by
  have alike := carries.alike
  have type : (context.tree.decl id).type.map other.type =
      (context.tree.decl id).type.map context.tree.type :=
    Option.map_congr fun type told =>
      alike.type_eq (alike.closed.typed (Decl.mem_types_of_type told))
  simp only [staticMember, upon_tree, upon_options, upon_skipped alike.toAgrees known,
    alike.declType_eq known, alike.spelling_eq known, alike.qualifiedName_eq known, type]

omit known in
theorem upon_enumConstants (whole : region.wholes id) :
    (context.upon other names).enumConstants id classType =
      context.enumConstants id classType := by
  rw [enumConstants, enumConstants, upon_tree, carries.alike.children_eq whole]
  refine List.map_congr_left fun value member => ?_
  rw [carries.alike.spelling_eq (carries.alike.closed.child member)]

end Data

theorem upon_childMembers (classType : String) (isAbstract : Bool) {inTemplate : Bool}
    {child : DeclId} (known : region.decls child)
    (spares : context.accepts child = true → inTemplate = false →
      ∀ base ∈ context.signatureBases child, context.Spares other .empty base) :
    (context.upon other names).childMembers classType isAbstract inTemplate child =
      context.childMembers classType isAbstract inTemplate child := by
  have alike := carries.alike
  unfold childMembers
  dsimp only
  rw [upon_tree, upon_accepts alike.toAgrees known, alike.kind_eq known, alike.spelling_eq known,
    alike.anonymous_eq known]
  cases accepted : context.accepts child with
  | false => rw [Bool.not_false, if_pos rfl, if_pos rfl]
  | true =>
      have spared := spares accepted
      rw [Bool.not_true, if_neg Bool.false_ne_true, if_neg Bool.false_ne_true]
      have whole : ∀ {kind}, (context.tree.decl child).kind = kind →
          kind ≠ .namespaceDecl ∧ kind ≠ .unitRoot → region.wholes child :=
        alike.closed.whole_of_kind known
      split
      · rename_i kind
        rw [upon_constructorMember carries (whole kind (by decide)) spared]
      · rename_i kind
        rw [upon_methodMember carries (whole kind (by decide)) spared accepted kind]
      · rename_i kind
        exact upon_conversionMember carries (whole kind (by decide)) spared classType
      · exact upon_fieldMember carries known classType
      · exact upon_staticMember carries known classType
      · rename_i kind
        rw [upon_enumConstants carries classType (whole kind (by decide))]
      · rfl

end Members

end UnitContext

end Bindery
