import Bindery.Proofs.Binding.Propagation
import Bindery.Proofs.Binding.Walks

/-!
# Overloads

A function or method is bound by its address, and with a signature if its name has other overloads.
The generator counts the public functions and methods of the unit's own file; so an address without
a signature is that of the only one counted of its name.  What is declared twice is bound twice.
-/

set_option autoImplicit false

namespace Bindery

/-! ## Lists -/

section

variable {α β γ : Type}

theorem one_lt_count_map [BEq γ] [LawfulBEq γ] {entries : List α}
    {key : α → γ} {first second : α} (isFirst : first ∈ entries) (isSecond : second ∈ entries)
    (apart : first ≠ second) (same : key first = key second) :
    1 < (entries.map key).count (key first) := by
  have among : ∀ {entry}, entry ∈ entries → key entry = key first →
      entry ∈ entries.filter fun other => key other == key first := fun member alike =>
    List.mem_filter.mpr ⟨member, beq_iff_eq.mpr alike⟩
  have isFirst := among isFirst rfl
  have isSecond := among isSecond same.symm
  rw [List.count_eq_countP, List.countP_map, List.countP_eq_length_filter]
  change 1 < (entries.filter fun other => key other == key first).length
  generalize entries.filter (fun other => key other == key first) = alike at isFirst isSecond
  match alike with
  | [] => cases isFirst
  | [only] =>
      rw [List.mem_singleton] at isFirst isSecond
      exact absurd (isFirst.trans isSecond.symm) apart
  | _ :: _ :: rest => simp

/-- If each of some owners gives one piece or none, the pieces are those of a part of the owners. -/
theorem exists_sublist_of_forall₂ {holds : α → Prop} {key : β → γ} {own : α → γ}
    {owners : List α} {pieces : List (List β)}
    (pairs : List.Forall₂ (fun owner piece => piece.map key = [] ∨
      holds owner ∧ piece.map key = [own owner]) owners pieces) :
    ∃ chosen : List α, chosen.Sublist owners ∧ (∀ owner ∈ chosen, holds owner) ∧
      pieces.flatten.map key = chosen.map own := by
  induction pairs with
  | nil => exact ⟨[], .refl _, nofun, rfl⟩
  | @cons owner piece owners pieces here _ ih =>
      obtain ⟨chosen, among, each, told⟩ := ih
      rcases here with nothing | ⟨known, one⟩
      · exact ⟨chosen, among.cons owner, each, by rw [List.flatten_cons, List.map_append, nothing,
          told, List.nil_append]⟩
      · exact ⟨owner :: chosen, among.cons_cons owner, List.forall_mem_cons.mpr ⟨known, each⟩,
          by rw [List.flatten_cons, List.map_append, one, told, List.map_cons,
            List.singleton_append]⟩

end

/-! ## Counting -/

namespace UnitContext

/-- The names of the declarations of a tree that count as overloads, one entry for each. -/
def countedNames (tree : DeclTree) (unitFile : String) : List String :=
  (tree.ids.filter (isOverload tree unitFile)).map tree.qualifiedName

/-- Whether the overloads of a unit are those of its tree. -/
def CountsOverloads (context : UnitContext) : Prop :=
  context.overloads = countedNames context.tree context.unitFile

/-- A declaration that counts as an overload. -/
def IsCounted (context : UnitContext) (id : DeclId) : Prop :=
  isOverload context.tree context.unitFile id = true

section

variable {context : UnitContext} {first second : DeclId}

theorem IsCounted.kind (counted : context.IsCounted first) :
    (context.tree.decl first).kind = .method ∨ (context.tree.decl first).kind = .functionDecl := by
  unfold IsCounted isOverload at counted
  simp only [Bool.and_eq_true, Bool.or_eq_true, beq_iff_eq] at counted
  exact counted.1.1.1

theorem IsCounted.mem_ids (counted : context.IsCounted first) :
    first ∈ context.tree.ids.filter (isOverload context.tree context.unitFile) := by
  refine List.mem_filter.mpr ⟨List.mem_range.mpr (DeclTree.lt_size_of_kind fun other => ?_),
    counted⟩
  rcases counted.kind with kind | kind <;> rw [kind] at other <;> cases other

/-- A function or method that takes part counts. -/
theorem isCounted_of_accepts (accepted : context.accepts first = true)
    (kind : (context.tree.decl first).kind = .method ∨
      (context.tree.decl first).kind = .functionDecl) : context.IsCounted first := by
  unfold accepts at accepted
  simp only [Bool.and_eq_true] at accepted
  obtain ⟨⟨⟨⟨-, file⟩, access⟩, kept⟩, -⟩ := accepted
  unfold IsCounted isOverload
  rcases kind with kind | kind <;> simp [kind, file, kept, beq_iff_eq.mp access]

/-- Two that count are overloads of each other if they share their name. -/
theorem overloaded_of_ne (counts : context.CountsOverloads) (isFirst : context.IsCounted first)
    (isSecond : context.IsCounted second) (apart : first ≠ second)
    (same : context.tree.qualifiedName first = context.tree.qualifiedName second) :
    context.overloaded first = true := by
  unfold overloaded
  rw [counts]
  exact decide_eq_true (one_lt_count_map isFirst.mem_ids isSecond.mem_ids apart same)

theorem overloaded_congr
    (same : context.tree.qualifiedName first = context.tree.qualifiedName second) :
    context.overloaded first = context.overloaded second := by
  rw [overloaded, same, overloaded]

/-- What is bound without a signature is the only one counted of its name. -/
theorem eq_of_not_overloaded (counts : context.CountsOverloads)
    (isFirst : context.IsCounted first) (isSecond : context.IsCounted second)
    (same : context.tree.qualifiedName first = context.tree.qualifiedName second)
    (alone : context.overloaded first = false) : first = second := by
  by_contra apart
  rw [overloaded_of_ne counts isFirst isSecond apart same] at alone
  cases alone

end

end UnitContext

/-! ## Callables -/

/-- The function or method whose address a callable takes: its name, and the signature that picks
it. -/
def Callable.target (callable : Callable) : String × Option String :=
  (callable.cppName, callable.signature)

def Member.callable? : Member → Option Callable
  | method callable => some callable
  | singletonFunction callable => some callable
  | _ => none

def Fragment.function? : Fragment → Option Callable
  | function _ callable => some callable
  | _ => none

def Fragment.class? : Fragment → Option ClassBinding
  | class_ binding => some binding
  | _ => none

/-- The classes among fragments. -/
def Fragment.classes (fragments : List Fragment) : List ClassBinding :=
  fragments.filterMap class?

theorem Fragment.class_mem_of_mem_classes {fragments : List Fragment} {binding : ClassBinding}
    (member : binding ∈ classes fragments) : .class_ binding ∈ fragments := by
  obtain ⟨fragment, among, isClass⟩ := List.mem_filterMap.mp member
  cases fragment <;> cases isClass
  exact among

/-- The targets of the functions among fragments. -/
def Fragment.functionTargets (fragments : List Fragment) : List (String × Option String) :=
  (fragments.filterMap function?).map (·.target)

/-- The targets of the methods among members. -/
def Member.targets (members : List Member) : List (String × Option String) :=
  (members.filterMap callable?).map (·.target)

namespace UnitContext

def functionTarget (context : UnitContext) (id : DeclId) : String × Option String :=
  ("&" ++ context.tree.qualifiedName id,
    if context.overloaded id then some (context.speller.functionSignature id) else none)

/-- How a method or conversion is called in C++ inside its class. -/
def callName (context : UnitContext) (id : DeclId) : String :=
  match (context.tree.decl id).kind with
  | .conversion =>
      "operator " ++ ((context.tree.decl id).resultType.map context.speller.spell).getD ""
  | _ => (context.tree.decl id).spelling

/-- The signature that a member is bound with; conversions have none. -/
def calledWith (context : UnitContext) (classType : String) (id : DeclId) : Option String :=
  match (context.tree.decl id).kind with
  | .conversion => none
  | _ => context.explicitSignature? id classType

/-- A method bound under a Ruby name, with the given arguments. -/
def methodUnder (context : UnitContext) (classType name : String) (args : List Argument)
    (id : DeclId) : Member :=
  let callable : Callable :=
    ⟨name, "&" ++ classType ++ "::" ++ (context.tree.decl id).spelling,
      context.explicitSignature? id classType, args, context.returnsBuffer id⟩
  if (context.tree.decl id).has .isStatic then .singletonFunction callable else .method callable

def methodTarget (context : UnitContext) (classType : String) (id : DeclId) :
    String × Option String :=
  ("&" ++ classType ++ "::" ++ context.callName id, context.calledWith classType id)

/-- The signature of a method as it is spelled. -/
def spelledSignature (context : UnitContext) (classType : String) (id : DeclId) : String :=
  if (context.tree.decl id).has .isStatic then context.speller.functionSignature id
  else context.speller.methodSignature id classType

section

variable {context : UnitContext}

/-- Two functions are bound alike if and only if they are called alike and have the same signature,
be it written or not. -/
theorem functionTarget_inj (counts : context.CountsOverloads) {first second : DeclId}
    (isFirst : context.IsCounted first) (isSecond : context.IsCounted second) :
    context.functionTarget first = context.functionTarget second ↔
      (context.tree.qualifiedName first, context.speller.functionSignature first) =
        (context.tree.qualifiedName second, context.speller.functionSignature second) := by
  unfold functionTarget
  simp only [Prod.mk.injEq, String.append_right_inj]
  refine and_congr_right fun same => ?_
  rw [overloaded_congr same]
  cases shared : context.overloaded second with
  | true => simp
  | false =>
      have only := eq_of_not_overloaded counts isSecond isFirst same.symm shared
      simp [only]

/-- Two methods of one name are bound alike if and only if their signatures are spelled alike. -/
theorem methodTarget_inj (counts : context.CountsOverloads) {classType : String}
    {first second : DeclId} (isFirst : context.IsCounted first)
    (isSecond : context.IsCounted second)
    (methods : (context.tree.decl first).kind = .method ∧
      (context.tree.decl second).kind = .method)
    (called : (context.tree.decl first).spelling = (context.tree.decl second).spelling)
    (same : context.tree.qualifiedName first = context.tree.qualifiedName second) :
    context.methodTarget classType first = context.methodTarget classType second ↔
      context.spelledSignature classType first = context.spelledSignature classType second := by
  have explicit (id : DeclId) : context.explicitSignature? id classType =
      if context.overloaded id then some (context.spelledSignature classType id) else none := by
    unfold explicitSignature? spelledSignature
    cases context.overloaded id <;> cases (context.tree.decl id).has .isStatic <;> rfl
  unfold methodTarget callName calledWith
  rw [methods.1, methods.2]
  simp only [called, explicit, overloaded_congr same, Prod.mk.injEq, true_and]
  cases shared : context.overloaded second with
  | true => simp
  | false =>
      have only := eq_of_not_overloaded counts isSecond isFirst same.symm shared
      simp [only]

/-! ## What a class binds -/

/-- Whether some children of a class or class template are those that its methods and conversions
are bound from, one after the other. -/
structure AreCallers (context : UnitContext) (id : DeclId) (classType : String)
    (members : List Member) (callers : List DeclId) : Prop where
  children : callers.Sublist (context.tree.children id)
  accepted : ∀ child ∈ callers, context.accepts child = true
  kinds : ∀ child ∈ callers, (context.tree.decl child).kind = .method ∨
    (context.tree.decl child).kind = .conversion
  targets : Member.targets members = callers.map (context.methodTarget classType)

/-- Whether members are bound from a child of a class: none, or one method or conversion. -/
def IsCalledFrom (context : UnitContext) (classType : String) (child : DeclId)
    (members : List Member) : Prop :=
  Member.targets members = [] ∨
    (context.accepts child = true ∧ ((context.tree.decl child).kind = .method ∨
      (context.tree.decl child).kind = .conversion)) ∧
    Member.targets members = [context.methodTarget classType child]

section

variable {classType : String} {child : DeclId} {inTemplate : Bool}

theorem constructorMember_targets :
    (context.constructorMember child inTemplate).Answers fun members =>
      Member.targets members = [] := by
  unfold constructorMember
  split
  · exact .pure rfl
  · refine .andThen fun signature => .pure ?_
    cases signature <;> rfl

theorem fieldMember_targets :
    (context.fieldMember child classType).Answers fun members =>
      Member.targets members = [] := by
  unfold fieldMember
  dsimp only
  split
  · exact .pure rfl
  · refine .andThen fun skipped => ?_
    split
    · exact .pure rfl
    · split
      · exact .pure rfl
      · refine .andThen fun mentions => ?_
        split <;> exact .pure rfl

theorem staticMember_targets :
    (context.staticMember child classType).Answers fun members =>
      Member.targets members = [] := by
  unfold staticMember
  refine .andThen fun skipped => ?_
  split
  · exact .pure rfl
  · dsimp only
    split
    · exact .pure rfl
    · split <;> exact .pure rfl

/-- A method is given first; a setter beside it takes no address. -/
theorem exists_methodMembers_eq (name : String) (signature : Signature) :
    ∃ setters : List Member, (∀ setter ∈ setters, setter.callable? = none) ∧
      context.methodMembers child classType name signature =
        context.methodUnder classType name signature.args child :: setters := by
  refine ⟨(if name == "[]" then
    context.indexSetter? child classType signature.types else none).toList, ?_, rfl⟩
  intro setter given
  rw [Option.mem_toList] at given
  split at given
  · obtain ⟨_, _, _, -, -, -, -, rfl⟩ := indexSetter?_eq_some given
    rfl
  · cases given

theorem methodMembers_targets (isMethod : (context.tree.decl child).kind = .method)
    (name : String) (signature : Signature) :
    Member.targets (context.methodMembers child classType name signature) =
      [context.methodTarget classType child] := by
  have own : context.methodTarget classType child =
      ("&" ++ classType ++ "::" ++ (context.tree.decl child).spelling,
        context.explicitSignature? child classType) := by
    unfold methodTarget callName calledWith
    rw [isMethod]
  obtain ⟨setters, silent, given⟩ :=
    @exists_methodMembers_eq context classType child name signature
  have nothing : setters.filterMap Member.callable? = [] := List.filterMap_eq_nil_iff.mpr silent
  rw [own, given, methodUnder]
  cases (context.tree.decl child).has .isStatic <;>
    simp [Member.targets, Member.callable?, Callable.target, nothing]

theorem methodMember_targets (isMethod : (context.tree.decl child).kind = .method) :
    (context.methodMember child classType inTemplate).Answers fun members =>
      Member.targets members = [] ∨
        Member.targets members = [context.methodTarget classType child] := by
  unfold methodMember
  refine .andThen fun skipped => ?_
  split
  · exact .pure (.inl rfl)
  · split
    · exact .pure (.inl rfl)
    · refine .andThen fun signature => ?_
      split
      · exact .pure (.inl rfl)
      · exact .pure (.inr (methodMembers_targets isMethod _ _))

theorem conversionMember_targets (isConversion : (context.tree.decl child).kind = .conversion) :
    (context.conversionMember child classType inTemplate).Answers fun members =>
      Member.targets members = [] ∨
        Member.targets members = [context.methodTarget classType child] := by
  unfold conversionMember
  refine .andThen fun skipped => ?_
  split
  · exact .pure (.inl rfl)
  · split
    case h_1 => exact .pure (.inl rfl)
    case h_2 result converts =>
      refine .andThen fun signature => .pure ?_
      cases signature with
      | none => exact .inl rfl
      | some signature =>
          refine .inr ?_
          unfold methodTarget callName calledWith
          rw [isConversion, converts]
          have parts : "::operator " = "::" ++ "operator " := rfl
          simp only [Option.map_some, Option.toList_some, Member.targets,
            List.filterMap_cons, List.filterMap_nil, Member.callable?, List.map_cons, List.map_nil,
            Callable.target, Option.getD_some, parts, String.append_assoc]

theorem childMembers_isCalledFrom (isAbstract : Bool) :
    (context.childMembers classType isAbstract inTemplate child).Answers
      (context.IsCalledFrom classType child) := by
  unfold childMembers
  dsimp only
  split
  case isTrue => exact .pure (.inl rfl)
  case isFalse taken =>
    rw [Bool.not_eq_true', Bool.not_eq_false] at taken
    have silent {step : Gen (List Member)}
        (nothing : step.Answers fun members => Member.targets members = []) :
        step.Answers (context.IsCalledFrom classType child) :=
      fun _ _ _ run => .inl (nothing _ _ _ run)
    split
    case h_1 =>
      split
      · exact .pure (.inl rfl)
      · exact silent constructorMember_targets
    case h_2 isMethod =>
      split
      · exact .pure (.inl rfl)
      · exact fun _ _ _ run => (methodMember_targets isMethod _ _ _ run).imp id fun told =>
          ⟨⟨taken, .inl isMethod⟩, told⟩
    case h_3 isConversion =>
      exact fun _ _ _ run => (conversionMember_targets isConversion _ _ _ run).imp id fun told =>
        ⟨⟨taken, .inr isConversion⟩, told⟩
    case h_4 => exact silent fieldMember_targets
    case h_5 => exact silent staticMember_targets
    case h_6 =>
      refine .pure (.inl ?_)
      split
      · simp [Member.targets, enumConstants, List.filterMap_map, Function.comp_def,
          Member.callable?]
      · rfl
    case h_7 => exact .pure (.inl rfl)

end

theorem targets_append (left right : List Member) :
    Member.targets (left ++ right) = Member.targets left ++ Member.targets right := by
  rw [Member.targets, Member.targets, Member.targets, List.filterMap_append, List.map_append]

theorem iteratorBindings_targets (speller : Speller) (id : DeclId) (classType : String) :
    Member.targets (speller.iteratorBindings id classType).members = [] := by
  have pair (first last rubyName : String) :
      Member.targets (speller.pairBindings id classType first last rubyName).members = [] := by
    unfold Speller.pairBindings
    dsimp only
    cases speller.tree.beginOfPair? id first last false <;>
      cases speller.tree.beginOfPair? id first last true <;> rfl
  rw [Speller.iteratorBindings, targets_append, pair, pair]
  rfl

theorem implicitConstructor_targets (id : DeclId) :
    Member.targets (context.implicitConstructor id) = [] := by
  unfold implicitConstructor
  dsimp only
  split <;> rfl

theorem classMembers_answers (id : DeclId) (classType : String) (inTemplate : Bool) :
    (context.classMembers id classType inTemplate).Answers fun made =>
      ∃ callers, context.AreCallers id classType made.1 callers := by
  unfold classMembers
  refine .bind (.mapM (fun child => childMembers_isCalledFrom _) _) fun declared each => ?_
  refine .andThen fun _ => .pure ?_
  have pairs : List.Forall₂ (fun child piece => piece.map Callable.target = [] ∨
      (context.accepts child = true ∧ ((context.tree.decl child).kind = .method ∨
        (context.tree.decl child).kind = .conversion)) ∧
          piece.map Callable.target = [context.methodTarget classType child])
      (context.tree.children id) (declared.map (·.filterMap Member.callable?)) :=
    List.forall₂_map_right_iff.mpr each
  obtain ⟨callers, among, known, told⟩ := exists_sublist_of_forall₂ pairs
  refine ⟨callers, among, fun child member => (known child member).1,
    fun child member => (known child member).2, ?_⟩
  rw [targets_append, targets_append, implicitConstructor_targets, iteratorBindings_targets,
    List.nil_append, List.append_nil, ← told, Member.targets, List.filterMap_flatten]

/-! ## What a unit binds -/

theorem filterMap_function?_declared (leg : Leg) :
    leg.declared.filterMap Fragment.function? = leg.fragments.filterMap Fragment.function? := by
  rw [Leg.declared, List.filterMap_filter]
  refine List.filterMap_congr fun fragment _ => ?_
  cases fragment <;> rfl

/-- A leg binds a function if it is one of a function, and no more than that one. -/
theorem IsLeg.functionTargets {leg : Leg} (isLeg : context.IsLeg leg) :
    Fragment.functionTargets leg.fragments = [] ∨
      (context.accepts leg.id = true ∧ (context.tree.decl leg.id).kind = .functionDecl) ∧
        Fragment.functionTargets leg.fragments = [context.functionTarget leg.id] := by
  rw [Fragment.functionTargets, ← filterMap_function?_declared]
  obtain ⟨-, outcome⟩ := isLeg.outcome
  cases outcome with
  | passed _ _ gives =>
      generalize leg.declared = declared at gives
      cases gives with
      | function isFunction => exact .inr ⟨⟨isLeg.accepted, isFunction⟩, rfl⟩
      | values =>
          refine .inl ?_
          simp [List.filterMap_map, Function.comp_def, Fragment.function?]
      | nothing | enum | constant | variable_ => exact .inl rfl
  | opened _ _ _ _ nothing => exact .inl (by rw [nothing]; rfl)
  | bound _ _ _ _ _ _ gives => exact .inl (by rw [gives]; rfl)
  | taken _ _ _ nothing => exact .inl (by rw [Leg.declared, nothing]; rfl)

/-- The functions of a unit, in the order in which they are bound. -/
theorem exists_functions_of_visitUnit {fragments : List Fragment} {progress : Progress}
    (run : context.visitUnit.run ⟨UnitState.empty, []⟩ = some (fragments, progress)) :
    ∃ functions : List DeclId, functions.Sublist context.visitOrder ∧
      (∀ id ∈ functions, context.accepts id = true ∧
        (context.tree.decl id).kind = .functionDecl) ∧
      Fragment.functionTargets fragments = functions.map context.functionTarget := by
  obtain ⟨legs, walks, rfl, inOrder⟩ := walks_of_visitUnit run
  have pairs : List.Forall₂ (fun leg piece => piece.map Callable.target = [] ∨
      (context.accepts leg.id = true ∧ (context.tree.decl leg.id).kind = .functionDecl) ∧
        piece.map Callable.target = [context.functionTarget leg.id]) legs
      (legs.map fun leg => leg.fragments.filterMap Fragment.function?) :=
    List.forall₂_map_right_iff.mpr (List.forall₂_same.mpr fun leg member =>
      (walks.isLeg leg member).functionTargets)
  obtain ⟨chosen, among, known, told⟩ := exists_sublist_of_forall₂ pairs
  refine ⟨chosen.map Leg.id, (among.map Leg.id).trans inOrder, ?_, ?_⟩
  · exact List.forall_mem_map.mpr known
  · rw [Fragment.functionTargets, List.filterMap_flatMap, List.flatMap_def, told, List.map_map]
    rfl

/-- The callers of a class that is bound, and those of a class template that has a builder. -/
theorem exists_callers_of_visitUnit {fragments : List Fragment} {progress : Progress}
    (run : context.visitUnit.run ⟨UnitState.empty, []⟩ = some (fragments, progress)) :
    (∀ binding, .class_ binding ∈ fragments → ∃ id callers, context.IsVisited id ∧
      binding.cppType = context.tree.qualifiedName id ∧
      context.AreCallers id binding.cppType binding.members callers) ∧
    ∀ builder ∈ progress.unit.builders, ∃ id callers, context.IsVisited id ∧
      builder.cppType = context.tree.qualifiedDisplayName id ∧
      context.AreCallers id builder.cppType builder.members callers := by
  obtain ⟨classes, templates⟩ := exists_members_of_visitUnit run
  constructor
  · intro binding member
    obtain ⟨id, visited, -, cppType, _, _, memberRun⟩ := classes binding member
    obtain ⟨callers, called⟩ := classMembers_answers _ _ _ _ _ _ memberRun
    exact ⟨id, callers, visited, cppType, called⟩
  · intro builder member
    obtain ⟨id, visited, -, cppType, _, _, memberRun⟩ := templates builder member
    obtain ⟨callers, called⟩ := classMembers_answers _ _ _ _ _ _ memberRun
    exact ⟨id, callers, visited, cppType, called⟩

/-- Whether the functions of a unit are bound from some declarations, one after the other. -/
structure BindsFunctions (context : UnitContext) (bindings : UnitBindings)
    (functions : List DeclId) : Prop where
  order : functions.Sublist context.visitOrder
  accepted : ∀ id ∈ functions, context.accepts id = true
  kinds : ∀ id ∈ functions, (context.tree.decl id).kind = .functionDecl
  targets : Fragment.functionTargets bindings.fragments = functions.map context.functionTarget
  once : (Fragment.functionTargets bindings.fragments).Nodup ↔
    (functions.map fun id =>
      (context.tree.qualifiedName id, context.speller.functionSignature id)).Nodup

/-- Whether the methods and conversions of a class are bound from some of its children, one after
the other; of two methods of one name the signatures as they are spelled decide. -/
structure BindsMethods (context : UnitContext) (id : DeclId) (classType : String)
    (members : List Member) (callers : List DeclId) : Prop where
  visited : context.IsVisited id
  called : context.AreCallers id classType members callers
  once : (Member.targets members).Nodup ↔
    (callers.map fun child => (context.callName child, context.calledWith classType child)).Nodup
  redeclared : ∀ first ∈ callers, ∀ second ∈ callers,
    (context.tree.decl first).kind = .method → (context.tree.decl second).kind = .method →
    (context.tree.decl first).spelling = (context.tree.decl second).spelling →
    context.tree.qualifiedName first = context.tree.qualifiedName second →
    (context.methodTarget classType first = context.methodTarget classType second ↔
      context.spelledSignature classType first = context.spelledSignature classType second)

theorem AreCallers.bindsMethods (counts : context.CountsOverloads) {id : DeclId}
    {classType : String} {members : List Member} {callers : List DeclId}
    (visited : context.IsVisited id) (called : context.AreCallers id classType members callers) :
    context.BindsMethods id classType members callers := by
  refine ⟨visited, called, ?_, ?_⟩
  · rw [called.targets]
    refine nodup_map_iff_of_mem fun first _ second _ => ?_
    simp only [methodTarget, Prod.mk.injEq, String.append_right_inj]
  · intro first isFirst second isSecond firstMethod secondMethod called' same
    exact methodTarget_inj counts
      (isCounted_of_accepts (called.accepted first isFirst) (.inl firstMethod))
      (isCounted_of_accepts (called.accepted second isSecond) (.inl secondMethod))
      ⟨firstMethod, secondMethod⟩ called' same

end

end UnitContext

/-- The functions of a unit are bound from declarations, each in its turn, and so are the methods
and conversions of each class and class template.  No function is bound twice if and only if no two
of these declarations share name and signature; no member is if and only if no two share name and
what they are called with, which for methods of one name comes to their signatures. -/
theorem overloads_are_bound_once_iff {depth : Nat} {options : BindOptions} {index : ProjectIndex}
    {unit : SourceUnit} {relative : String} {result : UnitResult}
    (run : generateUnit depth options index unit relative = some result) :
    (∃ functions, (UnitContext.ofUnit depth unit options index relative).BindsFunctions
      result.bindings functions) ∧
    (∀ binding, .class_ binding ∈ result.bindings.fragments → ∃ id callers,
      binding.cppType = unit.tree.qualifiedName id ∧
      (UnitContext.ofUnit depth unit options index relative).BindsMethods id binding.cppType
        binding.members callers) ∧
    ∀ builder ∈ result.bindings.builders, ∃ id callers,
      builder.cppType = unit.tree.qualifiedDisplayName id ∧
      (UnitContext.ofUnit depth unit options index relative).BindsMethods id builder.cppType
        builder.members callers := by
  obtain ⟨progress, visitRun, made⟩ := bindings_of_generateUnit run
  have counts : (UnitContext.ofUnit depth unit options index relative).CountsOverloads := rfl
  obtain ⟨functions, inOrder, known, targets⟩ := UnitContext.exists_functions_of_visitUnit visitRun
  obtain ⟨classes, templates⟩ := UnitContext.exists_callers_of_visitUnit visitRun
  refine ⟨⟨functions, inOrder, fun id member => (known id member).1,
    fun id member => (known id member).2, targets, ?_⟩, fun binding member => ?_,
    fun builder member => ?_⟩
  · rw [targets]
    exact nodup_map_iff_of_mem fun first isFirst second isSecond =>
      UnitContext.functionTarget_inj counts
        (UnitContext.isCounted_of_accepts (known first isFirst).1 (.inr (known first isFirst).2))
        (UnitContext.isCounted_of_accepts (known second isSecond).1
          (.inr (known second isSecond).2))
  · obtain ⟨id, callers, visited, cppType, called⟩ := classes binding member
    exact ⟨id, callers, cppType, called.bindsMethods counts visited⟩
  · rw [made] at member
    obtain ⟨id, callers, visited, cppType, called⟩ := templates builder member
    exact ⟨id, callers, cppType, called.bindsMethods counts visited⟩

/-- Two overloads of a function. -/
def areaUnit : SourceUnit :=
  .ofSteps
    [.builtin "void", .builtin "int", .builtin "double", .function .functionDecl 0 "area" 0,
     .param 1 "size" 1, .function .functionDecl 0 "area" 0, .param 3 "size" 2]

theorem two_overloads_are_bound_apart :
    ∃ result functions, generateUnit 0 .plain .empty areaUnit "unit.hpp" = some result ∧
      (UnitContext.ofUnit 0 areaUnit .plain .empty "unit.hpp").BindsFunctions result.bindings
        functions ∧
      (functions.map fun id => (areaUnit.tree.qualifiedName id,
        (Speller.ofTree areaUnit.tree).functionSignature id)).Nodup := by
  have targets : (generateUnit 0 .plain .empty areaUnit "unit.hpp").map (fun result =>
      decide (Fragment.functionTargets result.bindings.fragments).Nodup) = some true := by
    decide +kernel
  obtain ⟨result, run, decided⟩ := Option.map_eq_some_iff.mp targets
  obtain ⟨⟨functions, binds⟩, -⟩ := overloads_are_bound_once_iff run
  exact ⟨result, functions, run, binds, binds.once.mp (of_decide_eq_true decided)⟩

/-- A function that is declared and then defined, and a class that converts to a number, be it
constant or not. -/
def redeclaringUnit : SourceUnit :=
  .ofSteps
    [.builtin "void", .function .functionDecl 0 "area" 0, .function .functionDecl 0 "area" 0,
     .add 0 .classDecl "Angle", .builtin "double", .conversion 3 1, .conversion 3 1]

/-- The function is bound twice with the same signature, and the conversion twice without any. -/
theorem redeclared_function_is_bound_twice :
    ∃ result, generateUnit 0 .plain .empty redeclaringUnit "unit.hpp" = some result ∧
      ¬ (Fragment.functionTargets result.bindings.fragments).Nodup ∧
      ∃ binding, .class_ binding ∈ result.bindings.fragments ∧
        ¬ (Member.targets binding.members).Nodup := by
  have functions : (generateUnit 0 .plain .empty redeclaringUnit "unit.hpp").map (fun result =>
      Fragment.functionTargets result.bindings.fragments) =
        some [("&area", some "void(*)()"), ("&area", some "void(*)()")] := by
    decide +kernel
  have conversions : (generateUnit 0 .plain .empty redeclaringUnit "unit.hpp").map (fun result =>
      (Fragment.classes result.bindings.fragments).any fun binding =>
        decide (¬ (Member.targets binding.members).Nodup)) = some true := by
    decide +kernel
  obtain ⟨result, run, targets⟩ := Option.map_eq_some_iff.mp functions
  rw [run] at conversions
  obtain ⟨binding, member, twice⟩ := List.any_eq_true.mp (Option.some.inj conversions)
  refine ⟨result, run, ?_, binding, Fragment.class_mem_of_mem_classes member,
    of_decide_eq_true twice⟩
  rw [targets]
  decide

end Bindery
