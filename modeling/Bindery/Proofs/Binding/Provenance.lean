import Bindery.Proofs.Binding.Account
import Bindery.Proofs.Binding.Traversal

/-!
# The provenance of a unit

The traversal of a unit obeys the rules of origin.  So at the end of a unit every fragment has come
about by a rule, and so has every builder and every operator.
-/

set_option autoImplicit false

namespace Bindery

open Gen

namespace UnitContext

variable {context : UnitContext} {unit : UnitState}

/-! ## Members -/

/-- Whether a declaration inside a class contributes all of the members. -/
def Supplies (context : UnitContext) (classType : String) (id : DeclId) (members : List Member) :
    Prop :=
  ∀ member ∈ members, context.Contributes classType id member

section

variable {id : DeclId} {classType : String} {inTemplate : Bool}

theorem supplies_nothing :
    Obeys context unit (pure []) fun _ => context.Supplies classType id :=
  .pure fun _ _ => nofun

theorem supplies_of_unskipped {members : List Member} (accepted : context.accepts id = true)
    (kept : context.skipRule? id = none)
    (given : ∀ member ∈ members, context.GivesMember classType id member) :
    context.Supplies classType id members :=
  fun member present => ⟨given member present, accepted, fun _ => kept⟩

variable (accepted : context.accepts id = true)
include accepted

theorem constructorMember_obeys (isConstructor : (context.tree.decl id).kind = .constructor) :
    Obeys context unit (context.constructorMember id inTemplate) fun _ =>
      context.Supplies classType id := by
  unfold constructorMember
  split
  · exact supplies_nothing
  · refine .andThen (signature_obeys id inTemplate) fun signature has => ?_
    refine .pure fun _ _ member given => ?_
    obtain ⟨found, present, rfl⟩ := Option.map_eq_some_iff.mp (Option.mem_toList.mp given)
    exact ⟨.constructor isConstructor (has found present), accepted,
      fun guarded => absurd isConstructor guarded.1⟩

theorem methodMember_obeys (isMethod : (context.tree.decl id).kind = .method) :
    Obeys context unit (context.methodMember id classType inTemplate) fun _ =>
      context.Supplies classType id := by
  unfold methodMember
  refine bind_skipped_obeys supplies_nothing fun kept => ?_
  rw [if_neg Bool.false_ne_true]
  split
  case h_1 => exact supplies_nothing
  case h_2 name named =>
    refine .andThen (signature_obeys id inTemplate) fun signature has => ?_
    split
    case h_1 => exact supplies_nothing
    case h_2 signature =>
      refine .pure fun _ _ => supplies_of_unskipped accepted kept fun member given => ?_
      exact .method isMethod named (has signature rfl) given

theorem conversionMember_obeys (isConversion : (context.tree.decl id).kind = .conversion) :
    Obeys context unit (context.conversionMember id classType inTemplate) fun _ =>
      context.Supplies classType id := by
  unfold conversionMember
  refine bind_skipped_obeys supplies_nothing fun kept => ?_
  rw [if_neg Bool.false_ne_true]
  split
  case h_1 => exact supplies_nothing
  case h_2 result converts =>
    dsimp only
    refine .andThen (signature_obeys id inTemplate) fun signature has => ?_
    refine .pure fun _ _ => supplies_of_unskipped accepted kept fun member given => ?_
    obtain ⟨found, present, rfl⟩ := Option.map_eq_some_iff.mp (Option.mem_toList.mp given)
    exact .conversion isConversion converts (has found present)

theorem fieldMember_obeys (isField : (context.tree.decl id).kind = .fieldDecl) :
    Obeys context unit (context.fieldMember id classType) fun _ =>
      context.Supplies classType id := by
  unfold fieldMember
  dsimp only
  split
  · exact supplies_nothing
  · refine bind_skipped_obeys supplies_nothing fun kept => ?_
    rw [if_neg Bool.false_ne_true]
    split
    case h_1 => exact supplies_nothing
    case h_2 type typed =>
      refine bind_mentionsSkipped_obeys supplies_nothing fun unmentioned => ?_
      rw [if_neg Bool.false_ne_true]
      refine .pure fun _ _ => supplies_of_unskipped accepted kept ?_
      exact List.forall_mem_singleton.mpr (.field isField typed unmentioned)

theorem staticMember_obeys (isVariable : (context.tree.decl id).kind = .varDecl) :
    Obeys context unit (context.staticMember id classType) fun _ =>
      context.Supplies classType id := by
  unfold staticMember
  refine bind_skipped_obeys supplies_nothing fun kept => ?_
  have gives {member : Member} (given : context.GivesMember classType id member) :
      Obeys context unit (pure [member]) fun _ => context.Supplies classType id :=
    .pure fun _ _ => supplies_of_unskipped accepted kept (List.forall_mem_singleton.mpr given)
  rw [if_neg Bool.false_ne_true]
  dsimp only
  split
  · exact supplies_nothing
  · split
    · exact gives (.constant isVariable)
    · exact gives (.static isVariable)

end

theorem childMembers_obeys (classType : String) (isAbstract inTemplate : Bool) (child : DeclId) :
    Obeys context unit (context.childMembers classType isAbstract inTemplate child) fun _ =>
      context.Supplies classType child := by
  unfold childMembers
  dsimp only
  split
  case isTrue => exact supplies_nothing
  case isFalse accepted =>
    rw [Bool.not_eq_true', Bool.not_eq_false] at accepted
    split
    case h_1 isConstructor =>
      split
      · exact supplies_nothing
      · exact constructorMember_obeys accepted isConstructor
    case h_2 isMethod =>
      split
      · exact supplies_nothing
      · exact methodMember_obeys accepted isMethod
    case h_3 isConversion => exact conversionMember_obeys accepted isConversion
    case h_4 isField => exact fieldMember_obeys accepted isField
    case h_5 isVariable => exact staticMember_obeys accepted isVariable
    case h_6 isEnum =>
      refine .pure fun _ _ member given => ?_
      split at given
      · exact ⟨.enumValue isEnum given, accepted, fun guarded => absurd isEnum guarded.2⟩
      · cases given
    case h_7 => exact supplies_nothing

theorem classMembers_obeys (id : DeclId) (classType : String) (inTemplate : Bool) :
    Obeys context unit (context.classMembers id classType inTemplate) fun _ made =>
      ∀ member ∈ made.1, context.IsMemberOf id classType member := by
  unfold classMembers
  dsimp only
  -- The children are asked one by one, so what they give is told of each on its own.
  have each : Obeys context unit ((context.tree.children id).mapM
      (context.childMembers classType ((context.tree.decl id).has .isAbstract) inTemplate))
      fun _ declared => ∀ members ∈ declared, ∀ member ∈ members,
        ∃ child ∈ context.tree.children id, context.Contributes classType child member := by
    refine .mapM (fun _ known => known) fun child member => ?_
    exact (childMembers_obeys classType _ inTemplate child).weaken
      fun _ _ _ supplies given present => ⟨child, member, supplies given present⟩
  refine .andThen each fun declared known => ?_
  refine .andThen (.forIn (fun traits _ => .andThen (.addTraits traits) fun _ _ => .done) _ _)
    fun _ _ => .pure fun _ _ member given => ?_
  rcases List.mem_append.mp given with front | iterator
  · rcases List.mem_append.mp front with implicit | listed
    · exact .inl implicit
    · obtain ⟨members, made, present⟩ := List.mem_flatten.mp listed
      exact .inr (.inl (known members made member present))
  · exact .inr (.inr iterator)

/-! ## Declarations that the traversal comes to -/

/-- A visitor whose fragments, attached to a parent that the unit has, have come about by rules. -/
def Makes (context : UnitContext) (visit : Parent → Gen (List Fragment)) : Prop :=
  ∀ ⦃unit : UnitState⦄ ⦃parent : Parent⦄, parent.IsHome unit →
    Obeys context unit (visit parent) fun later fragments => context.AreMade later fragments

theorem makes_nothing :
    Obeys context unit (pure []) fun later fragments => context.AreMade later fragments :=
  .pure fun _ _ => nofun

section

variable {id : DeclId} (visited : context.IsVisited id)
include visited

theorem visitEnum_makes (isEnum : (context.tree.decl id).kind = .enumDecl) :
    context.Makes (context.visitEnum id) := by
  intro unit parent home
  unfold visitEnum
  dsimp only
  split
  case isTrue =>
    refine .pure fun _ grows fragment member => ?_
    obtain ⟨value, given, rfl⟩ := List.mem_map.mp member
    exact .enumValue visited isEnum given (home.mono grows)
  case isFalse =>
    refine bind_skipped_obeys makes_nothing fun kept => ?_
    rw [if_neg Bool.false_ne_true]
    refine .bind (.register _ _) fun bound registered further _ => ?_
    split
    · refine .pure fun _ last => areMade_singleton ?_
      exact .enum visited isEnum kept (home.mono (further.trans last))
    · exact makes_nothing

theorem visitOperator_obeys (isFunction : (context.tree.decl id).kind = .functionDecl)
    (kept : context.skipRule? id = none) (exported : context.isExported id = true) :
    Obeys context unit (context.visitOperator id) fun _ _ => True := by
  unfold visitOperator
  split
  case h_1 operator found =>
    refine bind_mentionsSkipped_obeys .done fun _ => ?_
    rw [if_pos Bool.not_false]
    refine .change (fun _ => .of_eq rfl rfl rfl) fun _ _ accountable => ?_
    exact accountable.pushOperator ⟨visited, isFunction, kept, exported, found⟩
  case h_2 => exact .done

theorem visitFunction_makes (isFunction : (context.tree.decl id).kind = .functionDecl) :
    context.Makes (context.visitFunction id) := by
  intro unit parent home
  unfold visitFunction
  refine bind_skipped_obeys makes_nothing fun kept => ?_
  refine bind_exported_obeys makes_nothing fun exported => ?_
  rw [Bool.not_true, if_neg Bool.false_ne_true]
  split
  · exact .andThen (visitOperator_obeys visited isFunction kept exported) fun _ _ => makes_nothing
  · refine .andThen (signature_obeys id false) fun signature has => ?_
    split
    case h_1 => exact makes_nothing
    case h_2 signature =>
      refine .pure fun _ grows => areMade_singleton ?_
      exact .function visited isFunction kept exported (has signature rfl) (home.mono grows)

theorem visitVariable_makes (isVariable : (context.tree.decl id).kind = .varDecl) :
    context.Makes (context.visitVariable id) := by
  intro unit parent home
  unfold visitVariable
  refine bind_skipped_obeys makes_nothing fun kept => ?_
  rw [if_neg Bool.false_ne_true]
  dsimp only
  split
  case h_1 => exact makes_nothing
  case h_2 =>
    refine bind_mentionsSkipped_obeys makes_nothing fun _ => ?_
    rw [if_neg Bool.false_ne_true]
    split
    · refine .pure fun _ grows => areMade_singleton ?_
      exact .constant visited isVariable kept (home.mono grows)
    · refine .pure fun _ grows => areMade_singleton ?_
      exact .variable_ visited isVariable kept (home.mono grows)

theorem bindTypedef_obeys {template : DeclId} {cppType : String} {args : List String}
    {parent : Parent} (isTypedef : (context.tree.decl id).kind.isTypedef)
    (names : context.namedInstantiation? id = some (template, cppType, args))
    (kept : context.skipRule? id = none) (templateKept : context.skipRule? template = none)
    (home : parent.IsHome unit) :
    Obeys context unit (do
      let qualified := context.tree.qualifiedName id
      let identifier := Name.classIdentifier qualified
      if ((← Gen.unit).identifierFor? cppType).isSome then
        return []
      else if ← Gen.register identifier cppType then
        let base ← context.declaredBase (context.speller.instantiateBase? template args)
        let builder ← context.builderCall template args
        return [.instantiation identifier
          (context.options.namer.className (context.tree.decl id).spelling qualified) cppType
          base parent builder]
      else
        return [] : Gen (List Fragment)) fun later fragments => context.AreMade later fragments := by
  have spells {inner : DeclId} {spelling : String} {written : List String}
      (isBase : context.speller.instantiateBase? template args =
        some (.instantiation inner spelling written)) : context.Spells inner written spelling :=
    .inl ⟨template, context.tree.parameterNames template, args, isBase⟩
  dsimp only
  refine .bind .unit_ fun state here known _ => ?_
  split
  case isTrue => exact makes_nothing
  case isFalse =>
    refine .bind (.register _ _) fun bound registered further _ => ?_
    split
    case isFalse => exact makes_nothing
    case isTrue =>
      refine .andThen (declaredBase_obeys spells) fun base _ => ?_
      refine .andThen (builderCall_obeys template args) fun builder _ => ?_
      refine .pure fun _ last => areMade_singleton ?_
      exact .named visited isTypedef names kept templateKept
        (home.mono (known.trans (further.trans last)))

theorem visitTypedef_makes (isTypedef : (context.tree.decl id).kind.isTypedef) :
    context.Makes (context.visitTypedef id) := by
  intro unit parent home
  unfold visitTypedef
  split
  case isTrue => exact makes_nothing
  case isFalse =>
    refine bind_skipped_obeys makes_nothing fun kept => ?_
    rw [if_neg Bool.false_ne_true]
    split
    case h_1 => exact makes_nothing
    case h_2 template cppType args names =>
      refine bind_skipped_obeys makes_nothing fun templateKept => ?_
      refine bind_mentionsSkipped_obeys makes_nothing fun _ => ?_
      exact bindTypedef_obeys visited isTypedef names kept templateKept home

theorem visitClassTemplate_obeys (isTemplate : (context.tree.decl id).kind = .classTemplate) :
    Obeys context unit (context.visitClassTemplate id) fun _ _ => True := by
  unfold visitClassTemplate
  refine bind_skipped_obeys .done fun kept => ?_
  refine bind_exported_obeys .done fun exported => ?_
  refine .andThen (classMembers_obeys id _ true) fun made given => ?_
  dsimp only
  split
  case isFalse => exact .done
  case isTrue =>
    refine .change (fun _ => .of_eq rfl rfl rfl) fun _ _ accountable => ?_
    exact accountable.addBuilder _ ⟨visited, isTemplate, kept, exported, rfl, rfl, given⟩

end

/-! ## Traversal -/

section

variable {visit : DeclId → Parent → Gen (List Fragment)}

theorem visitAll_makes {ids : List DeclId}
    (makes : ∀ id ∈ ids, context.accepts id = true → context.Makes (visit id)) :
    context.Makes (context.visitAll visit ids) := by
  intro unit parent home
  unfold visitAll
  have pieces : Obeys context unit ((ids.filter context.accepts).mapM fun id => do
      let produced ← visit id parent
      return (← Gen.takePending) ++ produced) fun later pieces =>
        ∀ piece ∈ pieces, context.AreMade later piece := by
    refine .mapM (fun grows made => made.mono grows) fun id member => ?_
    obtain ⟨listed, accepted⟩ := List.mem_filter.mp member
    refine .bind (makes id listed accepted home) fun produced later grows made => ?_
    refine .bind .takePending fun waiting taken further waited => ?_
    exact .pure fun _ last =>
      areMade_append (waited.mono last) (made.mono (further.trans last))
  refine .bind pieces fun pieces later _ made => .pure fun _ grows fragment member => ?_
  obtain ⟨piece, listed, present⟩ := List.mem_flatten.mp member
  exact (made piece listed fragment present).mono grows

variable {id : DeclId} (visited : context.IsVisited id)
  (makes : ∀ child, context.IsVisited child → context.Makes (visit child))
include visited makes

theorem visitNamespace_makes (isNamespace : (context.tree.decl id).kind = .namespaceDecl) :
    context.Makes (context.visitNamespace visit id) := by
  intro unit parent home
  unfold visitNamespace
  dsimp only
  split
  case isTrue => exact makes_nothing
  case isFalse named =>
    have inside (kept : (context.tree.decl id).has .isInlineNamespace = true ∨
        context.skipRule? id = none) :
        context.Makes (context.visitAll visit (context.tree.children id)) := by
      have entered : context.IsEntered id := by
        simp only [IsEntered, isNamespace]
        exact ⟨Bool.eq_false_iff.mpr named, kept⟩
      exact visitAll_makes fun child member accepted =>
        makes child (.inside visited entered member accepted)
    split
    case isTrue isInline => exact inside (.inl isInline) home
    case isFalse =>
      refine bind_skipped_obeys makes_nothing fun kept => ?_
      rw [if_neg Bool.false_ne_true]
      refine .bind (openNamespace_obeys isNamespace) fun opened entered grows found => ?_
      obtain ⟨isOpen, opens⟩ := found
      refine .bind (inside (.inr kept) (isHome_module isOpen)) fun produced later more made => ?_
      refine .pure fun _ last => areMade_append (fun fragment member => ?_) (made.mono last)
      rw [opens fragment (Option.mem_toList.mp member)]
      exact .module_ visited isNamespace kept (home.mono (grows.trans (more.trans last)))

omit visited makes in
theorem opaqueClass_obeys {outer : DeclId} (siblings : List DeclId)
    (child : id ∈ context.tree.children outer) :
    Obeys context unit (context.opaqueClass siblings id) fun _ found =>
      ∀ inner ∈ found, context.IsOpaqueIn outer inner := by
  unfold opaqueClass
  dsimp only
  split
  case isTrue => exact .pure fun _ _ => nofun
  case isFalse suitable =>
    have record : (context.tree.decl id).kind.isRecord = true := by
      simp only [Bool.or_eq_true, Bool.not_eq_true', not_or, Bool.not_eq_false] at suitable
      exact suitable.1.1.1.1
    refine bind_skipped_obeys (.pure fun _ _ => nofun) fun kept => ?_
    rw [if_neg Bool.false_ne_true]
    split
    case isTrue => exact .pure fun _ _ => nofun
    case isFalse =>
      refine .bind (.register _ _) fun bound registered _ _ => ?_
      split
      · refine .pure fun _ _ inner member => ?_
        cases Option.some.inj member
        exact ⟨id, child, record, kept, rfl⟩
      · exact .pure fun _ _ => nofun

omit visited makes in
theorem opaqueClasses_obeys (outer : DeclId) :
    Obeys context unit (context.opaqueClasses outer) fun _ found =>
      ∀ inner ∈ found, context.IsOpaqueIn outer inner := by
  unfold opaqueClasses
  dsimp only
  have each : Obeys context unit
      ((context.tree.children outer).mapM (context.opaqueClass (context.tree.children outer)))
      fun _ found => ∀ entry ∈ found, ∀ inner ∈ entry, context.IsOpaqueIn outer inner :=
    .mapM (fun _ known => known) fun _ member => opaqueClass_obeys _ member
  refine .andThen each fun found known => .pure fun _ _ inner member => ?_
  exact known (some inner) (List.reduceOption_mem_iff.mp member) inner rfl

theorem bindClass_obeys {parent : Parent} (entered : context.IsEntered id)
    (record : (context.tree.decl id).kind.isRecord) (home : parent.IsHome unit) :
    Obeys context unit (do
      let cppType := context.tree.qualifiedName id
      let identifier := Name.classIdentifier cppType
      if ← Gen.register identifier cppType then
        let base ← context.declaredBase (context.speller.resolveBase? id [] [])
        let opaqueClasses ← context.opaqueClasses id
        let (members, aliases) ← context.classMembers id cppType false
        let inside := Parent.class_ identifier
        let (before, behind) := (← Gen.takePending).span (·.parent != inside)
        let nested ← context.visitAll visit (nestedDeclarations context.tree id) inside
        let name := context.options.namer.className (context.tree.decl id).spelling cppType
        return before
          ++ .class_ ⟨identifier, name, cppType, base, parent, opaqueClasses, members, aliases⟩
          :: behind ++ nested
      else
        return [] : Gen (List Fragment)) fun later fragments => context.AreMade later fragments := by
  have inside : context.Makes (context.visitAll visit (nestedDeclarations context.tree id)) :=
    visitAll_makes fun child member accepted =>
      makes child (.inside visited entered (mem_children_of_mem_nestedDeclarations member) accepted)
  dsimp only
  refine .bind (.register _ _) fun bound registered known binds => ?_
  split
  case isFalse => exact makes_nothing
  case isTrue isBound =>
    refine .andThen (declaredBase_obeys fun isBase => .inl ⟨id, [], [], isBase⟩) fun base _ => ?_
    refine .andThen (opaqueClasses_obeys id) fun opaqueClasses inner => ?_
    refine .andThen (classMembers_obeys id _ false) fun made given => ?_
    refine .bind .takePending fun waiting taken grows waited => ?_
    -- What is inside the class is attached to it, and it is bound by now.
    have own : (Parent.class_ (Name.classIdentifier (context.tree.qualifiedName id))).IsHome taken :=
      ⟨_, grows.identifierFor?_eq_some (binds isBound)⟩
    rw [List.span_eq_takeWhile_dropWhile]
    dsimp only
    refine .bind (inside own) fun nested last further nestedMade => .pure fun final rest => ?_
    have waits := waited.mono (further.trans rest)
    have grown := known.trans (grows.trans (further.trans rest))
    -- What waited stands in two parts around the class, none of it lost.
    have parts : _ ++ _ = waiting := List.takeWhile_append_dropWhile
      (p := (·.parent != .class_ (Name.classIdentifier (context.tree.qualifiedName id))))
    rw [← parts] at waits
    obtain ⟨madeBefore, madeBehind⟩ := List.forall_mem_append.mp waits
    refine areMade_append (areMade_append madeBefore ?_) (nestedMade.mono rest)
    refine List.forall_mem_cons.mpr ⟨?_, madeBehind⟩
    exact .class_ visited entered record (home.mono grown) inner given

theorem visitClass_makes (record : (context.tree.decl id).kind = .classDecl ∨
    (context.tree.decl id).kind = .structDecl) :
    context.Makes (context.visitClass visit id) := by
  intro unit parent home
  unfold visitClass
  dsimp only
  split
  case isTrue => exact makes_nothing
  case isFalse named =>
    refine bind_skipped_obeys makes_nothing fun kept => ?_
    refine bind_exported_obeys makes_nothing fun exported => ?_
    have reasons := And.intro (Bool.eq_false_iff.mpr named) (And.intro kept exported)
    have entered : context.IsEntered id := by
      obtain isClass | isStruct := record
      · simpa only [IsEntered, isClass] using reasons
      · simpa only [IsEntered, isStruct] using reasons
    have isRecord : (context.tree.decl id).kind.isRecord := by
      obtain isClass | isStruct := record
      · rw [isClass]
        rfl
      · rw [isStruct]
        rfl
    exact bindClass_obeys visited makes entered isRecord home

end

theorem visitTo_makes {depth : Nat} {id : DeclId} (visited : context.IsVisited id) :
    context.Makes (context.visitTo depth id) := by
  induction depth generalizing id with
  | zero => exact fun _ _ _ _ _ _ _ _ run => by cases run
  | succ depth ih =>
      intro unit parent home
      have inside : ∀ child, context.IsVisited child → context.Makes (context.visitTo depth child) :=
        fun child => ih
      unfold visitTo
      split
      case h_1 isNamespace => exact visitNamespace_makes visited inside isNamespace home
      case h_2 isLinkage =>
        have entered : context.IsEntered id := by simp only [IsEntered, isLinkage]
        exact visitAll_makes (fun child member accepted =>
          inside child (.inside visited entered member accepted)) home
      case h_3 isClass => exact visitClass_makes visited inside (.inl isClass) home
      case h_4 isStruct => exact visitClass_makes visited inside (.inr isStruct) home
      case h_5 isTemplate =>
        exact .andThen (visitClassTemplate_obeys visited isTemplate) fun _ _ => makes_nothing
      case h_6 isEnum => exact visitEnum_makes visited isEnum home
      case h_7 isFunction => exact visitFunction_makes visited isFunction home
      case h_8 isVariable => exact visitVariable_makes visited isVariable home
      case h_9 isTypedef => exact visitTypedef_makes visited (by rw [isTypedef]; rfl) home
      case h_10 isAlias => exact visitTypedef_makes visited (by rw [isAlias]; rfl) home
      case h_11 => exact makes_nothing

/-- Everything that a unit holds at its end has come about by a rule. -/
theorem visitUnit_made {fragments : List Fragment} {progress : Progress}
    (run : context.visitUnit.run ⟨UnitState.empty, []⟩ = some (fragments, progress)) :
    context.Accountable progress.unit ∧ context.AreMade progress.unit fragments := by
  have makes : context.Makes (context.visitAll (context.visitTo context.tree.size)
      (context.tree.children DeclTree.root)) :=
    visitAll_makes fun id member accepted => visitTo_makes (.top member accepted)
  have obeys := @makes .empty .global trivial
  exact (obeys _ _ _ .rfl accountable_empty run).2

end UnitContext

/-- The bindings of a unit are made from its traversal. -/
theorem bindings_of_generateUnit {depth : Nat} {options : BindOptions} {index : ProjectIndex}
    {unit : SourceUnit} {relative : String} {result : UnitResult}
    (run : generateUnit depth options index unit relative = some result) :
    ∃ progress,
      (UnitContext.ofUnit depth unit options index relative).visitUnit.run
        ⟨UnitState.empty, []⟩ = some (result.bindings.fragments, progress) ∧
      result.bindings = (UnitContext.ofUnit depth unit options index relative).bindings
        result.bindings.fragments progress.unit := by
  obtain ⟨⟨fragments, progress⟩, visitRun, rest⟩ := Option.bind_eq_some_iff.mp run
  cases Option.some.inj rest
  exact ⟨progress, visitRun, rfl⟩

end Bindery
