import Bindery.Proofs.Binding.Reach
import Bindery.Proofs.Binding.BaseChain

/-!
# When generation ends

All that can keep the generation of a unit from ending is the synthesis of bases.  If each base that
a declaration of the unit asks for reaches finitely many spellings, then from some depth on there is
a result.  A class template that derives from another instantiation of itself, as recursive
templates do, may reach infinitely many.
-/

set_option autoImplicit false
set_option maxRecDepth 100000

namespace Bindery

namespace UnitContext

/-! ## Wanted bases -/

/-- The instantiations in the signature of a function. -/
def signatureBases (context : UnitContext) (function : DeclId) : List BaseClass :=
  match context.readSignature function with
  | .error _ => []
  | .ok signature =>
      signature.typeIds.filterMap fun type =>
        (context.unnamedInstantiation? type).map fun (template, cppType, args) =>
          .instantiation template cppType args

/-- The base of a class and the instantiations in the signatures of its members. -/
def classBases (context : UnitContext) (id : DeclId) : List BaseClass :=
  (context.speller.resolveBase? id [] []).toList
    ++ ((context.tree.children id).filter context.accepts).flatMap context.signatureBases

/-- The base of the instantiation that a typedef names. -/
def typedefBases (context : UnitContext) (id : DeclId) : List BaseClass :=
  match context.namedInstantiation? id with
  | some (template, _, args) => (context.speller.instantiateBase? template args).toList
  | none => []

/-- The bases that a declaration asks for when it is visited. -/
def visitBases (context : UnitContext) (id : DeclId) : List BaseClass :=
  match (context.tree.decl id).kind with
  | .classDecl | .structDecl => context.classBases id
  | .functionDecl => context.signatureBases id
  | .typedefDecl | .typeAlias => context.typedefBases id
  | _ => []

/-- The bases that the declarations of a unit ask for, those left out that take no part or that a
rule skips. -/
def wantedBases (context : UnitContext) : List BaseClass :=
  (context.tree.ids.filter fun id => context.accepts id && (context.skipRule? id).isNone).flatMap
    context.visitBases

/-! ## Visits that end -/

/-- A base whose synthesis ends within the depth of a unit. -/
def Affords (context : UnitContext) (base : BaseClass) : Prop :=
  context.Settles context.depth .empty base

variable {context : UnitContext}

theorem isBound_of_empty {unit : UnitState} {cppType : String}
    (bound : context.isBound .empty cppType = true) : context.isBound unit cppType = true := by
  have known : (context.speller.registries.typedefFor? cppType).isSome = true ∨
      (context.index.knownClass? cppType).isSome = true := by
    simpa [isBound, boundIdentifier?, UnitState.empty, UnitState.identifierFor?] using bound
  rcases known with named | earlier
  · simp [isBound, named]
  · simp [isBound, boundIdentifier?, earlier]

theorem bind_skipped_isTotal {α : Type} {id : DeclId} {rest : Bool → Gen α}
    (whenSkipped : (rest true).IsTotal)
    (whenKept : context.skipRule? id = none → (rest false).IsTotal) :
    (context.skipped id >>= rest).IsTotal := by
  unfold skipped
  split
  case h_1 found _ =>
    rw [bind_assoc]
    exact .bind (.report _) fun _ => (pure_bind true rest).symm ▸ whenSkipped
  case h_2 unlisted =>
    rw [pure_bind]
    exact whenKept unlisted

/-! ### Visits that may ask for a base -/

variable (grounded : context.tree.IsGrounded)

include grounded

theorem Affords.bindBase_isTotal {base : BaseClass} (affords : context.Affords base) :
    (context.bindBase context.requireInstantiation base).IsTotal := by
  intro progress
  have settles : context.Settles context.depth progress.unit base :=
    affords.mono (Nat.le_refl _) fun _ bound => isBound_of_empty bound
  exact (run_bindBase_isSome_iff grounded).mpr settles

theorem declaredBase_isTotal {base : Option BaseClass}
    (affords : ∀ wanted ∈ base.toList, context.Affords wanted) :
    (context.declaredBase base).IsTotal := by
  cases base with
  | none => exact .pure none
  | some wanted => exact (affords wanted List.mem_cons_self).bindBase_isTotal grounded

/-- The instantiations in a signature settle within the depth of a unit, if they are asked for at
all: in a template they are not. -/
def AffordsSignature (context : UnitContext) (function : DeclId) (inTemplate : Bool) : Prop :=
  inTemplate = false → ∀ base ∈ context.signatureBases function, context.Affords base

theorem signature_isTotal {function : DeclId} {inTemplate : Bool}
    (affords : context.AffordsSignature function inTemplate) :
    (context.signature function inTemplate).IsTotal := by
  refine Gen.IsTotal.isInherited.signature fun outside signature readable type member => ?_
  unfold ensureInstantiation
  split
  case h_1 template cppType args unnamed =>
    have wanted : BaseClass.instantiation template cppType args ∈
        context.signatureBases function := by
      rw [signatureBases, readable]
      exact List.mem_filterMap.mpr ⟨type, member, by rw [unnamed]; rfl⟩
    have afforded := affords outside _ wanted
    exact .bind (afforded.bindBase_isTotal grounded) fun _ => .pure _
  case h_2 => exact .pure _

theorem classMembers_isTotal {id : DeclId} {classType : String} {inTemplate : Bool}
    (affords : ∀ child ∈ context.tree.children id, context.accepts child = true →
      context.AffordsSignature child inTemplate) :
    (context.classMembers id classType inTemplate).IsTotal :=
  Gen.IsTotal.isInherited.classMembers fun child member accepts =>
    signature_isTotal grounded (affords child member accepts)

/-- The members of a template ask for nothing: they are bound when it is instantiated. -/
theorem visitClassTemplate_isTotal (id : DeclId) : (context.visitClassTemplate id).IsTotal := by
  have asksNothing : ∀ child, context.AffordsSignature child true := by
    intro child outside
    cases outside
  exact Gen.IsTotal.isInherited.visitClassTemplate
    (fun _ => classMembers_isTotal grounded fun child _ _ => asksNothing child)
    fun _ _ => .change _

theorem visitFunction_isTotal {id : DeclId} (parent : Parent)
    (affords : context.skipRule? id = none → ∀ base ∈ context.signatureBases id,
      context.Affords base) : (context.visitFunction id parent).IsTotal :=
  Gen.IsTotal.isInherited.visitFunction (fun _ => .change _) fun kept =>
    signature_isTotal grounded fun _ => affords kept

theorem visitTypedef_isTotal {id : DeclId} (parent : Parent)
    (affords : context.skipRule? id = none → ∀ base ∈ context.typedefBases id,
      context.Affords base) : (context.visitTypedef id parent).IsTotal := by
  refine Gen.IsTotal.isInherited.visitTypedef .register .unit ?_ builderCall_isTotal
  intro kept template cppType args named
  have wanted := affords kept
  rw [typedefBases, named] at wanted
  exact declaredBase_isTotal grounded wanted

omit grounded in
theorem visitAll_isTotal {visit : DeclId → Parent → Gen (List Fragment)} {ids : List DeclId}
    {parent : Parent}
    (total : ∀ id ∈ ids, context.accepts id = true → (visit id parent).IsTotal) :
    (context.visitAll visit ids parent).IsTotal := by
  unfold visitAll
  refine .bind (Gen.IsTotal.isInherited.mapM fun id member => ?_) fun _ => .pure _
  obtain ⟨listed, accepts⟩ := List.mem_filter.mp member
  exact .bind (total id listed accepts) fun _ => .bind .takePending fun _ => .pure _

omit grounded in
theorem visitNamespace_isTotal {visit : DeclId → Parent → Gen (List Fragment)} {id : DeclId}
    (parent : Parent)
    (total : ∀ child ∈ context.tree.children id, context.accepts child = true →
      ∀ parent, (visit child parent).IsTotal) :
    (context.visitNamespace visit id parent).IsTotal := by
  have inside := fun scope => visitAll_isTotal fun child member accepts =>
    total child member accepts scope
  unfold visitNamespace
  dsimp only
  split
  · exact .pure []
  · split
    · exact inside parent
    · refine .bind (skipped_isTotal id) fun skipped => ?_
      split
      · exact .pure []
      · exact .bind (openNamespace_isTotal id parent) fun _ => .bind (inside _) fun _ => .pure _

theorem visitClass_isTotal {visit : DeclId → Parent → Gen (List Fragment)} {id : DeclId}
    (parent : Parent)
    (total : ∀ child ∈ context.tree.children id, context.accepts child = true →
      ∀ parent, (visit child parent).IsTotal)
    (affords : context.skipRule? id = none → ∀ base ∈ context.classBases id,
      context.Affords base) : (context.visitClass visit id parent).IsTotal := by
  unfold visitClass
  dsimp only
  split
  · exact .pure []
  · refine bind_skipped_isTotal (.pure []) fun kept => ?_
    obtain ⟨baseAfforded, membersAfforded⟩ := List.forall_mem_append.mp (affords kept)
    rw [if_neg Bool.false_ne_true]
    refine .bind (exported_isTotal id) fun exported => ?_
    split
    · exact .pure []
    · refine .bind (.register _ _) fun bound => ?_
      split
      · have opaqueTotal : (context.opaqueClasses id).IsTotal :=
          Gen.IsTotal.isInherited.opaqueClasses Gen.IsTotal.register
        have nestedTotal := fun scope => visitAll_isTotal fun child member accepts =>
          total child (mem_children_of_mem_nestedDeclarations member) accepts scope
        refine .bind (declaredBase_isTotal grounded baseAfforded) fun base => ?_
        refine .bind opaqueTotal fun opaqueClasses => ?_
        refine .bind (classMembers_isTotal grounded fun child member accepts _ base wanted =>
          membersAfforded base ?_) fun members => ?_
        · exact List.mem_flatMap.mpr ⟨child, List.mem_filter.mpr ⟨member, accepts⟩, wanted⟩
        exact .bind .takePending fun _ => .bind (nestedTotal _) fun _ => .pure _
      · exact .pure []

omit grounded in
theorem mem_wantedBases {id : DeclId} {base : BaseClass}
    (inside : id < context.tree.size) (accepts : context.accepts id = true)
    (kept : context.skipRule? id = none) (wanted : base ∈ context.visitBases id) :
    base ∈ context.wantedBases := by
  have listed : id ∈ context.tree.ids.filter fun id =>
      context.accepts id && (context.skipRule? id).isNone :=
    List.mem_filter.mpr ⟨List.mem_range.mpr inside, by simp [accepts, kept]⟩
  exact List.mem_flatMap.mpr ⟨id, listed, wanted⟩

/-- The way down from a declaration ends, since what is inside comes behind it. -/
theorem visitTo_isTotal (affords : ∀ base ∈ context.wantedBases, context.Affords base)
    {depth : Nat} {id : DeclId} (deep : context.tree.size ≤ depth + id)
    (inside : id < context.tree.size) (accepts : context.accepts id = true) (parent : Parent) :
    (context.visitTo depth id parent).IsTotal := by
  induction depth generalizing id parent with
  | zero => exact absurd inside (Nat.not_lt_of_le (Nat.zero_add id ▸ deep))
  | succ depth ih =>
      have total : ∀ child ∈ context.tree.children id, context.accepts child = true →
          ∀ parent, (context.visitTo depth child parent).IsTotal := by
        intro child member acceptsChild
        have behind : depth + (id + 1) ≤ depth + child :=
          Nat.add_le_add_left (grounded.lt_child member) depth
        have deepEnough := (deep.trans (Nat.succ_add_eq_add_succ depth id).le).trans behind
        exact ih deepEnough (grounded.child_lt member) acceptsChild
      have own : ∀ bases, context.visitBases id = bases → context.skipRule? id = none →
          ∀ base ∈ bases, context.Affords base := by
        rintro _ rfl kept base wanted
        exact affords base (mem_wantedBases inside accepts kept wanted)
      unfold visitTo
      split
      case h_1 => exact visitNamespace_isTotal parent total
      case h_2 => exact visitAll_isTotal fun child member accepts => total child member accepts _
      case h_3 kind =>
        exact visitClass_isTotal grounded parent total (own _ (by rw [visitBases, kind]))
      case h_4 kind =>
        exact visitClass_isTotal grounded parent total (own _ (by rw [visitBases, kind]))
      case h_5 => exact .bind (visitClassTemplate_isTotal grounded id) fun _ => .pure []
      case h_6 => exact Gen.IsTotal.isInherited.visitEnum Gen.IsTotal.register
      case h_7 kind =>
        exact visitFunction_isTotal grounded parent (own _ (by rw [visitBases, kind]))
      case h_8 => exact Gen.IsTotal.isInherited.visitVariable context id parent
      case h_9 kind => exact visitTypedef_isTotal grounded parent (own _ (by rw [visitBases, kind]))
      case h_10 kind =>
        exact visitTypedef_isTotal grounded parent (own _ (by rw [visitBases, kind]))
      case h_11 => exact .pure []

/-- A unit is visited to its end if each base that it asks for settles within its depth. -/
theorem visitUnit_isTotal (affords : ∀ base ∈ context.wantedBases, context.Affords base) :
    context.visitUnit.IsTotal := by
  refine visitAll_isTotal fun child member accepts => ?_
  exact visitTo_isTotal grounded affords (Nat.le_add_right _ _) (grounded.child_lt member)
    accepts .global

/-! ## Generation -/

omit grounded

theorem Settles.withDepth {depth : Nat} {unit : UnitState} {base : BaseClass}
    (settles : context.Settles depth unit base) (limit : Nat) :
    ({ context with depth := limit } : UnitContext).Settles depth unit base := by
  induction settles with
  | idle present => exact .idle present
  | made _ ih => exact .made ih

theorem exists_settles_of_finite {bases : List BaseClass} {unit : UnitState}
    (finite : ∀ base ∈ bases, (context.reachedTypes unit base).Finite) :
    ∃ depth, ∀ base ∈ bases, context.Settles depth unit base := by
  induction bases with
  | nil => exact ⟨0, fun base member => absurd member List.not_mem_nil⟩
  | cons first rest ih =>
      obtain ⟨firstFinite, restFinite⟩ := List.forall_mem_cons.mp finite
      obtain ⟨depth, settle⟩ := ih restFinite
      obtain ⟨own, settles⟩ := exists_settles_iff.mpr firstFinite
      refine ⟨max own depth, List.forall_mem_cons.mpr ⟨?_, fun base member => ?_⟩⟩
      · exact settles.mono (Nat.le_max_left _ _) fun _ known => known
      · exact (settle base member).mono (Nat.le_max_right _ _) fun _ known => known

end UnitContext

theorem generateUnit_isSome {depth : Nat} {options : BindOptions} {index : ProjectIndex}
    {unit : SourceUnit} {relative : String} (grounded : unit.tree.IsGrounded)
    (affords : ∀ base ∈ (UnitContext.ofUnit depth unit options index relative).wantedBases,
      (UnitContext.ofUnit depth unit options index relative).Affords base) :
    (generateUnit depth options index unit relative).isSome := by
  have total : (UnitContext.ofUnit depth unit options index relative).visitUnit.IsTotal :=
    UnitContext.visitUnit_isTotal grounded affords
  obtain ⟨⟨fragments, progress⟩, run⟩ :=
    Option.isSome_iff_exists.mp (total ⟨UnitState.empty, []⟩)
  exact Option.isSome_iff_exists.mpr ⟨_, Option.bind_eq_some_iff.mpr ⟨_, run, rfl⟩⟩

open UnitContext in
/-- The synthesis of a base ends if and only if it reaches finitely many spellings.  If that is so
for each base that a unit asks for, then the unit is generated, whatever else it holds. -/
theorem generation_ends_of_finite_reach (path : String) (steps : List TreeBuilder.Step)
    (options : BindOptions) (index : ProjectIndex) (relative : String)
    (fit : TreeBuilder.allFit (.start path) steps = true) :
    let unit := ((TreeBuilder.start path).performAll steps).unit
    let context := UnitContext.ofUnit 0 unit options index relative
    (∀ (base : BaseClass) (progress : Progress),
      (∃ depth, ((context.bindBase (context.requireInstantiationTo depth) base).run
        progress).isSome) ↔ (context.reachedTypes progress.unit base).Finite) ∧
    ((∀ base ∈ context.wantedBases, (context.reachedTypes .empty base).Finite) →
      ∃ enough, ∀ depth ≥ enough,
        (generateUnit depth options index unit relative).isSome) := by
  intro unit context
  have grounded : context.tree.IsGrounded := TreeBuilder.start_performAll_isGrounded path fit
  refine ⟨fun base progress => exists_run_bindBase_isSome_iff grounded, fun finite => ?_⟩
  obtain ⟨enough, settle⟩ := exists_settles_of_finite finite
  refine ⟨enough, fun depth deep => ?_⟩
  refine generateUnit_isSome grounded fun base wanted => ?_
  exact ((settle base wanted).mono deep fun _ known => known).withDepth depth

/-- A class template that derives from another one, and a typedef of it. -/
def pairSteps : List TreeBuilder.Step :=
  [.classTemplate 0 "Base" ["T"],
   .classTemplate 0 "Derived" ["T"],
   .templateBase 3 1 "T",
   .specialization 3 "int",
   .named 7,
   .newTypedef .typedefDecl 0 "DerivedInt" 2]

/-- The context of the unit of these steps. -/
def pairContext : UnitContext :=
  .ofUnit 0 ((TreeBuilder.start "/src/unit.hpp").performAll pairSteps).unit .plain .empty
    "unit.hpp"

theorem pairContext_wantedBases :
    pairContext.wantedBases = [.instantiation 1 "Base<int>" ["int"]] := by
  decide +kernel

theorem pairContext_settles :
    pairContext.Settles 1 .empty (.instantiation 1 "Base<int>" ["int"]) := by
  refine .made fun base derived => ?_
  have last : pairContext.speller.instantiateBase? 1 ["int"] = none := by decide +kernel
  rw [last] at derived
  cases derived

theorem pair_generation_ends :
    TreeBuilder.allFit (.start "/src/unit.hpp") pairSteps = true ∧
    (∀ base ∈ pairContext.wantedBases, (pairContext.reachedTypes .empty base).Finite) ∧
    ∃ enough, ∀ depth ≥ enough,
      (generateUnit depth .plain .empty
        ((TreeBuilder.start "/src/unit.hpp").performAll pairSteps).unit "unit.hpp").isSome := by
  have fit : TreeBuilder.allFit (.start "/src/unit.hpp") pairSteps = true := by decide +kernel
  have finite : ∀ base ∈ pairContext.wantedBases,
      (pairContext.reachedTypes .empty base).Finite := by
    intro base wanted
    rw [pairContext_wantedBases] at wanted
    cases List.mem_singleton.mp wanted
    exact pairContext_settles.reachedTypes_finite
  have ends := (generation_ends_of_finite_reach "/src/unit.hpp" pairSteps .plain .empty
    "unit.hpp" fit).2 finite
  exact ⟨fit, finite, ends⟩

/-! ## Templates that derive from themselves -/

namespace UnitContext

variable {context : UnitContext}

theorem IsBare.admits_eq_true (bare : context.IsBare) {template : DeclId}
    (outside : context.tree.isStd template = false) (cppType : String) (args : List String) :
    context.admits template cppType args = true := by
  simp [admits, outside, bare.lookup_eq_none, bare.mentionedIn_eq_none]

/-- An instantiation as a base. -/
def asBase (context : UnitContext) (instantiation : Instantiation) : BaseClass :=
  .instantiation instantiation.template (context.typeOf instantiation) instantiation.args

/-- Instantiations each of which has the next one as its base, none of them bound and all of them
spelled differently: a chain without an end. -/
structure IsEndless (context : UnitContext) (unit : UnitState) (chain : Nat → Instantiation) :
    Prop where
  derived : ∀ place, context.speller.instantiateBase? (chain place).template (chain place).args =
    some (context.asBase (chain (place + 1)))
  missing : ∀ place, context.isMissing unit (context.asBase (chain place)) = true
  different : Function.Injective fun place => context.typeOf (chain place)

theorem IsEndless.tail {unit : UnitState} {chain : Nat → Instantiation}
    (endless : context.IsEndless unit chain) :
    context.IsEndless (unit.markGenerated (context.typeOf (chain 0)))
      fun place => chain (place + 1) := by
  refine ⟨fun place => endless.derived (place + 1), fun place => ?_, fun place other same => ?_⟩
  · obtain ⟨admitted, unbound⟩ := (Bool.and_eq_true _ _).mp (endless.missing (place + 1))
    have differs : context.typeOf (chain (place + 1)) ≠ context.typeOf (chain 0) := by
      intro same
      exact absurd (endless.different same) (Nat.succ_ne_zero place)
    refine (Bool.and_eq_true _ _).mpr ⟨admitted, ?_⟩
    rw [isBound_markGenerated, beq_eq_false_iff_ne.mpr differs, Bool.false_or]
    exact unbound
  · exact Nat.succ.inj (endless.different same)

/-- An endless chain settles within no depth. -/
theorem IsEndless.not_settles {unit : UnitState} {chain : Nat → Instantiation}
    (endless : context.IsEndless unit chain) (depth : Nat) :
    ¬ context.Settles depth unit (context.asBase (chain 0)) := by
  intro settles
  induction depth generalizing unit chain with
  | zero =>
      cases settles with
      | idle present => exact Bool.false_ne_true (present.symm.trans (endless.missing 0))
  | succ depth ih =>
      cases settles with
      | idle present => exact Bool.false_ne_true (present.symm.trans (endless.missing 0))
      | made further => exact ih endless.tail (further _ (endless.derived 0))

theorem IsEndless.reachedTypes_infinite {unit : UnitState} {chain : Nat → Instantiation}
    (endless : context.IsEndless unit chain) :
    (context.reachedTypes unit (context.asBase (chain 0))).Infinite := by
  intro finite
  obtain ⟨depth, settles⟩ := exists_settles_iff.mpr finite
  exact endless.not_settles depth settles

end UnitContext

/-- A class template that derives from itself with a smaller argument, as templates do that count
down, and a typedef of it. -/
def rankSteps : List TreeBuilder.Step :=
  [.inFile "/src/base.hpp",
   .classTemplate 0 "Rank" [],
   .builtin "int",
   .nonTypeParam 1 "N" 0,
   .templateBase 1 1 "N - 1",
   .inUnit,
   .specialization 1 "3",
   .named 5,
   .newTypedef .typedefDecl 0 "Rank3" 3]

def rankUnit : SourceUnit :=
  ((TreeBuilder.start "/src/unit.hpp").performAll rankSteps).unit

def rankContext (depth : Nat) : UnitContext :=
  .ofUnit depth rankUnit .plain .empty "unit.hpp"

/-- The instantiations from which the one that the typedef names derives. -/
def rankChain : Nat → Instantiation
  | 0 => ⟨1, ["3 - 1"]⟩
  | place + 1 => (rankChain place).baseOf rankUnit.tree 1 ["N - 1"]

theorem rankUnit_tree :
    rankUnit.tree.parameterNames 1 = ["N"] ∧ rankUnit.tree.qualifiedName 1 = "Rank" ∧
      rankUnit.tree.isStd 1 = false ∧
      (TypeRegistries.ofTree rankUnit.tree).typedefs = [⟨"Rank<3>", 6, false⟩] := by
  refine ⟨?_, ?_, ?_, ?_⟩ <;> decide +kernel

theorem rankChain_template (place : Nat) : (rankChain place).template = 1 := by
  cases place <;> rfl

theorem rank_hasTemplateBase (depth place : Nat) :
    (rankContext depth).speller.HasTemplateBase (rankChain place).template 1 ["N - 1"] := by
  rw [rankChain_template]
  change (rankContext 0).speller.HasTemplateBase 1 1 ["N - 1"]
  refine ⟨⟨3, 1, ?_, ?_, ?_, .dependent "Rank" (.inl ?_) ?_ ?_ ?_ ?_ ?_ ?_⟩, ?_, ?_⟩ <;>
    decide +kernel

theorem rankChain_derived (depth place : Nat) :
    (rankContext depth).speller.instantiateBase? (rankChain place).template
        (rankChain place).args =
      some ((rankContext depth).asBase (rankChain (place + 1))) :=
  (rank_hasTemplateBase depth place).instantiateBase?_eq_some

theorem replaceWords_decrement {meaning : String → Option String} {arg : String}
    (known : meaning "N" = some arg) : Text.replaceWords meaning "N - 1" = arg ++ " - 1" := by
  let read (word : List Char) : Option (List Char) :=
    (meaning (String.ofList word)).map String.toList
  have first : Chars.replacement? read [] ['N'] = some arg.toList :=
    congrArg (Option.map String.toList) known
  have last : Chars.replacement? read ['N', ' ', '-', ' '] ['1'] = none := rfl
  have letter : Chars.isIdentChar 'N' = true := by decide
  have digit : Chars.isIdentChar '1' = true := by decide
  have blank : Chars.isIdentChar ' ' = false := by decide
  have minus : Chars.isIdentChar '-' = false := by decide
  have chars : Chars.replaceWords read [] ['N', ' ', '-', ' ', '1'] =
      arg.toList ++ [' ', '-', ' ', '1'] := by
    simp [Chars.replaceWords, first, last, letter, digit, blank, minus]
  change String.ofList (Chars.replaceWords read [] ['N', ' ', '-', ' ', '1']) = _
  rw [chars, String.ofList_append, String.ofList_toList]

/-- Each argument is longer than the one before it. -/
theorem rankChain_args (place : Nat) :
    ∃ arg, (rankChain place).args = [arg] ∧ arg.length = 5 + 4 * place := by
  induction place with
  | zero => exact ⟨"3 - 1", rfl, rfl⟩
  | succ place ih =>
      obtain ⟨arg, args, length⟩ := ih
      have names := rankUnit_tree.1
      have known : (rankChain place).meaning rankUnit.tree "N" = some arg := by
        rw [Instantiation.meaning, rankChain_template, names, args]
        rfl
      refine ⟨arg ++ " - 1", congrArg (fun text => [text]) (replaceWords_decrement known), ?_⟩
      rw [String.length_append, length]
      rfl

theorem length_typeOf_rankChain (depth place : Nat) :
    ((rankContext depth).typeOf (rankChain place)).length = 11 + 4 * place := by
  obtain ⟨arg, args, length⟩ := rankChain_args place
  have name := rankUnit_tree.2.1
  have spelled : (rankContext depth).typeOf (rankChain place) = "Rank" ++ "<" ++ arg ++ ">" := by
    change rankUnit.tree.qualifiedName _ ++ "<" ++ Text.joinArgs _ ++ ">" = _
    rw [rankChain_template, name, args, Text.joinArgs, String.intercalate_singleton]
  have angle : "<".length = 1 ∧ ">".length = 1 ∧ "Rank".length = 4 := by decide
  rw [spelled, String.length_append, String.length_append, String.length_append, length]
  omega

theorem rankContext_isBare (depth : Nat) : (rankContext depth).IsBare :=
  ⟨rfl, rfl⟩

theorem rank_isEndless (depth : Nat) {unit : UnitState} (unmarked : unit.autoGenerated = [])
    (bound : ∀ cppType, cppType ≠ "Rank<3>" → unit.identifierFor? cppType = none) :
    (rankContext depth).IsEndless unit rankChain := by
  obtain ⟨-, -, own, typedefs⟩ := rankUnit_tree
  refine ⟨rankChain_derived depth, fun place => ?_, fun place other same => ?_⟩
  · have differs : (rankContext depth).typeOf (rankChain place) ≠ "Rank<3>" := by
      intro same
      have length := (length_typeOf_rankChain depth place).symm.trans (congrArg String.length same)
      have short : "Rank<3>".length = 7 := by decide
      omega
    have unnamed : (rankContext depth).speller.registries.typedefFor?
        ((rankContext depth).typeOf (rankChain place)) = none := by
      change Registered.find? (TypeRegistries.ofTree rankUnit.tree).typedefs _ = none
      rw [typedefs, Registered.find?, List.find?_cons_of_neg (by simpa using differs.symm)]
      rfl
    have admitted : (rankContext depth).admits (rankChain place).template
        ((rankContext depth).typeOf (rankChain place)) (rankChain place).args = true := by
      refine (rankContext_isBare depth).admits_eq_true ?_ _ _
      rw [rankChain_template]
      exact own
    have unknown : (rankContext depth).boundIdentifier? unit
        ((rankContext depth).typeOf (rankChain place)) = none := by
      rw [UnitContext.boundIdentifier?, bound _ differs]
      rfl
    refine (Bool.and_eq_true _ _).mpr ⟨admitted, ?_⟩
    rw [UnitContext.isBound, unnamed, unknown, unmarked]
    rfl
  · have length := congrArg String.length same
    simp only [length_typeOf_rankChain] at length
    omega

theorem rank_names (depth : Nat) : (rankContext depth).Names 0 6 ⟨1, ["3"]⟩ := by
  have names : (rankContext 0).Names 0 6 ⟨1, ["3"]⟩ := by
    refine ⟨.inl ?_, ?_, ?_, ?_, ⟨3, 5, ?_, ?_, ?_, ?_⟩, ?_, ?_⟩ <;> decide +kernel
  exact ⟨names.kind, names.accepted, names.inside, names.outside, names.underlying,
    names.arguments, names.plain⟩

/-- The chain starts at the base of what the typedef names. -/
theorem rank_instantiateBase? (depth : Nat) :
    (rankContext depth).speller.instantiateBase? 1 ["3"] =
      some ((rankContext depth).asBase (rankChain 0)) := by
  change (rankContext 0).speller.instantiateBase? 1 ["3"] =
    some ((rankContext 0).asBase (rankChain 0))
  decide +kernel

/-- The unit is its typedef: the template is in another file. -/
theorem run_visitTypedef_of_rank_ends {depth : Nat}
    (ends : (generateUnit depth .plain .empty rankUnit "unit.hpp").isSome) :
    ∃ result, ((rankContext depth).visitTypedef 6 .global).run ⟨.empty, []⟩ = some result := by
  obtain ⟨result, generated⟩ := Option.isSome_iff_exists.mp ends
  obtain ⟨progress, run, -⟩ := generateUnit_eq_some generated
  have visited : ((rankContext depth).tree.children DeclTree.root).filter
      (rankContext depth).accepts = [6] := by
    change ((rankContext 0).tree.children DeclTree.root).filter (rankContext 0).accepts = [6]
    decide +kernel
  have size : (rankContext depth).tree.size = 7 := by
    change rankUnit.tree.size = 7
    decide +kernel
  have kind : ((rankContext depth).tree.decl 6).kind = .typedefDecl := by
    change (rankUnit.tree.decl 6).kind = _
    decide +kernel
  change (rankContext depth).visitUnit.run _ = _ at run
  unfold UnitContext.visitUnit UnitContext.visitAll at run
  rw [visited, size, List.mapM_cons] at run
  obtain ⟨pieces, _, piecesRun, -⟩ := Gen.run_bind_eq_some run
  obtain ⟨piece, _, pieceRun, -⟩ := Gen.run_bind_eq_some piecesRun
  obtain ⟨produced, after, visitRun, -⟩ := Gen.run_bind_eq_some pieceRun
  rw [UnitContext.visitTo, kind] at visitRun
  exact ⟨_, visitRun⟩

theorem rank_ends_nowhere :
    TreeBuilder.allFit (.start "/src/unit.hpp") rankSteps = true ∧
    ((rankContext 0).reachedTypes .empty
      (.instantiation 1 "Rank<3 - 1>" ["3 - 1"])).Infinite ∧
    ¬ ∃ depth, (generateUnit depth .plain .empty rankUnit "unit.hpp").isSome := by
  have fit : TreeBuilder.allFit (.start "/src/unit.hpp") rankSteps = true := by decide +kernel
  have start : (rankContext 0).asBase (rankChain 0) =
      .instantiation 1 "Rank<3 - 1>" ["3 - 1"] := by
    decide +kernel
  refine ⟨fit, ?_, ?_⟩
  · rw [← start]
    exact (rank_isEndless 0 rfl fun _ _ => rfl).reachedTypes_infinite
  · rintro ⟨depth, ends⟩
    have grounded : (rankContext depth).tree.IsGrounded :=
      TreeBuilder.start_performAll_isGrounded "/src/unit.hpp" fit
    have root : ((rankContext depth).tree.decl 0).kind = .unitRoot := by
      change (rankUnit.tree.decl 0).kind = _
      decide +kernel
    let unit : UnitState := (rankContext depth).bindTypedef .empty 6 ⟨1, ["3"]⟩
    have bound : ∀ cppType, cppType ≠ "Rank<3>" → unit.identifierFor? cppType = none := by
      intro cppType differs
      have only : unit.byType = [("Rank<3>", "rb_cRank3")] := by
        change ((rankContext 0).bindTypedef .empty 6 ⟨1, ["3"]⟩).byType = _
        decide +kernel
      rw [UnitState.identifierFor?, only, List.lookup_cons, beq_eq_false_iff_ne.mpr differs]
      rfl
    obtain ⟨result, run⟩ := run_visitTypedef_of_rank_ends ends
    rw [(rankContext_isBare depth).run_visitTypedef_eq (.root root) (rank_names depth) rfl rfl]
      at run
    obtain ⟨base, after, baseRun, -⟩ := Gen.run_bind_eq_some run
    rw [rank_instantiateBase? depth] at baseRun
    have found : (((rankContext depth).bindBase ((rankContext depth).requireInstantiationTo depth)
        ((rankContext depth).asBase (rankChain 0))).run ⟨unit, []⟩).isSome :=
      Option.isSome_iff_exists.mpr ⟨_, baseRun⟩
    exact (rank_isEndless depth rfl bound).not_settles depth
      ((UnitContext.run_bindBase_isSome_iff grounded).mp found)

end Bindery
