import Bindery.Proofs.Binding.Overloads
import Bindery.Proofs.Text.Trimming

/-!
# Methods that can be bound

A method whose signature can be written and mentions nothing skipped is bound once, in its place
among the methods of its class.  Methods are told from operators by the first letters of their
names, so one whose name merely begins as the names of operators do is left out.
-/

set_option autoImplicit false
set_option maxRecDepth 100000

namespace Bindery

/-! ## Names -/

/-- A name with a symbol has a character that no identifier has. -/
theorem exists_symbolic_of_operatorSymbol? {name symbol : String}
    (found : operatorSymbol? name = some symbol) :
    ∃ c ∈ name.toList, Chars.isIdentChar c = false := by
  obtain ⟨behind, rest, found⟩ := Option.bind_eq_some_iff.mp found
  dsimp only at found
  split at found
  case isFalse => cases found
  case isTrue isSymbol =>
    cases found
    rw [Bool.and_eq_true, Bool.not_eq_true', List.all_eq_true] at isSymbol
    obtain ⟨nonempty, symbolic⟩ := isSymbol
    have some : (Text.trim behind).toList ≠ [] := by
      intro nothing
      rw [String.toList_eq_nil_iff.mp nothing] at nonempty
      cases nonempty
    obtain ⟨c, member⟩ := List.exists_mem_of_ne_nil _ some
    have isSymbolic := symbolic c member
    rw [Bool.and_eq_true, Bool.not_eq_true'] at isSymbolic
    refine ⟨c, ?_, isSymbolic.1⟩
    obtain ⟨dropped, taken, rfl⟩ := Option.map_eq_some_iff.mp rest
    unfold Text.trim at member
    rw [String.toList_ofList, String.toList_ofList] at member
    unfold Chars.dropPrefix? at taken
    split at taken
    case isFalse => cases taken
    case isTrue =>
      cases taken
      exact List.mem_of_mem_drop (Chars.mem_of_mem_trim member)

theorem Text.IsIdentifier.operatorSymbol?_eq_none {name : String} (named : IsIdentifier name) :
    operatorSymbol? name = none := by
  refine Option.eq_none_iff_forall_ne_some.mpr fun symbol found => ?_
  obtain ⟨c, member, symbolic⟩ := exists_symbolic_of_operatorSymbol? found
  rw [named.plain c member] at symbolic
  cases symbolic

/-! ## Lists of methods -/

/-- The methods among members. -/
def Member.methods (members : List Member) : List Member :=
  members.filter fun member => member.callable?.isSome

theorem Member.methods_append (left right : List Member) :
    methods (left ++ right) = methods left ++ methods right :=
  List.filter_append left right

@[simp] theorem Member.targets_methods (members : List Member) :
    targets (methods members) = targets members := by
  rw [targets, methods, List.filterMap_filter, targets]
  congr 1
  refine List.filterMap_congr fun member _ => ?_
  cases member.callable? <;> rfl

theorem Member.methods_eq_nil_of_targets {members : List Member}
    (nothing : targets members = []) : methods members = [] := by
  refine List.filter_eq_nil_iff.mpr fun member among => ?_
  have none := List.filterMap_eq_nil_iff.mp (List.map_eq_nil_iff.mp nothing) member among
  rw [none]
  nofun

namespace UnitContext

/-- Whether a declaration is a method that can be bound: a public one of the unit's own file, not
deleted, that no rule skips, with an ordinary name that no iterator has, a fixed number of
parameters, all of them typed and none an rvalue reference, and no skipped symbol in its types. -/
structure IsBindable (context : UnitContext) (id : DeclId) : Prop where
  isMethod : (context.tree.decl id).kind = .method
  isPublic : (context.tree.decl id).access = .isPublic
  undeleted : (context.tree.decl id).has .isDeleted = false
  inUnit : context.tree.isInFile id context.unitFile = true
  kept : context.skipRule? id = none
  named : Text.IsIdentifier (context.tree.decl id).spelling
  ordinary : isIteratorMethod (context.tree.decl id).spelling = false
  fixed : (context.tree.decl id).has .isVariadic = false
  typed : ∀ param ∈ context.tree.parameters id, ∃ type,
    (context.tree.decl param).type = some type ∧ (context.tree.type type).kind ≠ .rvalueRef
  clean : ∀ type ∈ context.functionTypes id, context.IsClean type

/-- What a method is bound as in a class spelled `classType`, under its configured name or the
conventional one. -/
def boundMethod (context : UnitContext) (classType : String) (id : DeclId) : Member :=
  context.methodUnder classType
    (context.options.namer.methodName (context.methodShape id) (context.tree.qualifiedName id))
    (context.arguments id) id

/-- Whether a method has no name of the kind that operators have, and does not stand in a system
header. -/
def isTaken (context : UnitContext) (id : DeclId) : Bool :=
  !Text.startsWith "operator" (context.tree.decl id).spelling
    && !(context.tree.decl id).location.inSystemHeader

/-- The methods that a child of a class gives: a method that can be bound gives the one that it is
bound as, or nothing if it is not taken; and any child gives one method at most, whose address is
its own. -/
structure GivesMethods (context : UnitContext) (classType : String) (id : DeclId)
    (methods : List Member) : Prop where
  own : context.IsCalledFrom classType id methods
  bindable : context.IsBindable id →
    methods = if context.isTaken id then [context.boundMethod classType id] else []

variable {context : UnitContext} {id : DeclId} {classType : String} {inTemplate : Bool}

/-! ## Signatures -/

theorem exists_mapM_readParameter {params : List (DeclId × Nat)}
    (typed : ∀ entry ∈ params, ∃ type, (context.tree.decl entry.1).type = some type ∧
      (context.tree.type type).kind ≠ .rvalueRef) :
    ∃ read, params.mapM (fun (param, place) => context.readParameter param place) = .ok read := by
  refine exists_mapM_eq_ok_iff.mpr fun entry member => ?_
  obtain ⟨type, hasType, plain⟩ := typed entry member
  exact ⟨(type, context.argument entry.2 entry.1 type), by simp [readParameter, hasType, plain]⟩

/-- A signature that can be written and is clean is answered. -/
theorem signature_answers_some {signature : Signature} (has : context.HasSignature id signature) :
    (context.signature id inTemplate).Answers fun result => result = some signature := by
  obtain ⟨reads, unmentioned⟩ := has
  unfold UnitContext.signature
  rw [reads]
  dsimp only
  refine .bind (context.mentionsSkipped_answers id _) fun mentions same => ?_
  rw [unmentioned] at same
  rw [same, if_neg (by simp)]
  split
  · exact .andThen fun _ => .pure rfl
  · exact .pure rfl

namespace IsBindable

theorem exists_signature (bindable : context.IsBindable id) :
    ∃ signature, context.HasSignature id signature := by
  have typed : ∀ entry ∈ (context.tree.parameters id).zipIdx, ∃ type,
      (context.tree.decl entry.1).type = some type ∧
        (context.tree.type type).kind ≠ .rvalueRef := by
    intro entry member
    exact bindable.typed entry.1 (List.fst_mem_of_mem_zipIdx member)
  obtain ⟨read, reads⟩ := exists_mapM_readParameter typed
  have readable : ∃ signature, context.readSignature id = .ok signature := by
    unfold readSignature
    dsimp only
    rw [bindable.fixed, if_neg Bool.false_ne_true, reads]
    exact ⟨_, rfl⟩
  obtain ⟨signature, readsAll⟩ := readable
  refine ⟨signature, readsAll, List.findSome?_eq_none_iff.mpr fun type member => ?_⟩
  rw [(readSignature_eq_ok readsAll).1] at member
  exact Option.map_eq_none_iff.mpr (bindable.clean type member)

theorem accepts_eq (bindable : context.IsBindable id) :
    context.accepts id = !(context.tree.decl id).location.inSystemHeader := by
  unfold accepts
  simp [bindable.isMethod, bindable.isPublic, bindable.undeleted, bindable.inUnit,
    DeclKind.isRecord]

theorem methodName?_eq (bindable : context.IsBindable id) :
    context.methodName? id =
      if Text.startsWith "operator" (context.tree.decl id).spelling then none
      else some (context.options.namer.methodName (context.methodShape id)
        (context.tree.qualifiedName id)) := by
  unfold methodName?
  dsimp only
  rw [bindable.named.operatorSymbol?_eq_none]
  rfl

end IsBindable

/-! ## Members -/

theorem isSome_callable?_methodUnder (name : String) (args : List Argument) :
    (context.methodUnder classType name args id).callable?.isSome = true := by
  unfold methodUnder
  cases (context.tree.decl id).has .isStatic <;> rfl

/-- Whatever its Ruby name is, a method is the only one beside its setter. -/
theorem methods_methodMembers {signature : Signature} (has : context.HasSignature id signature) :
    Member.methods (context.methodMembers id classType
      (context.options.namer.methodName (context.methodShape id) (context.tree.qualifiedName id))
      signature) = [context.boundMethod classType id] := by
  obtain ⟨setters, silent, given⟩ := @exists_methodMembers_eq context classType id
    (context.options.namer.methodName (context.methodShape id) (context.tree.qualifiedName id))
    signature
  have nothing : Member.methods setters = [] := by
    refine List.filter_eq_nil_iff.mpr fun setter member => ?_
    rw [silent setter member]
    nofun
  unfold Member.methods at nothing ⊢
  rw [given, List.filter_cons, if_pos (isSome_callable?_methodUnder _ _), nothing, boundMethod,
    (readSignature_eq_ok has.1).2]

/-- A method that can be bound gives one, unless its name begins as the names of operators do. -/
theorem methodMember_answers (bindable : context.IsBindable id) :
    (context.methodMember id classType inTemplate).Answers fun members =>
      Member.methods members =
        if Text.startsWith "operator" (context.tree.decl id).spelling then []
        else [context.boundMethod classType id] := by
  obtain ⟨signature, has⟩ := bindable.exists_signature
  unfold methodMember
  refine .bind (context.skipped_answers id) fun skipped same => ?_
  rw [same, bindable.kept, if_neg (by simp), bindable.methodName?_eq]
  by_cases named : Text.startsWith "operator" (context.tree.decl id).spelling = true
  · rw [if_pos named, if_pos named]
    exact .pure rfl
  · rw [if_neg named, if_neg named]
    refine .bind (signature_answers_some has) fun result answered => ?_
    rw [answered]
    exact .pure (methods_methodMembers has)

theorem childMembers_answers_methods (isAbstract : Bool) (bindable : context.IsBindable id) :
    (context.childMembers classType isAbstract inTemplate id).Answers fun members =>
      Member.methods members =
        if context.isTaken id then [context.boundMethod classType id] else [] := by
  unfold childMembers isTaken
  dsimp only
  rw [bindable.accepts_eq]
  -- What stands in a system header is left out before its kind counts.
  cases (context.tree.decl id).location.inSystemHeader with
  | true =>
      rw [Bool.not_true, Bool.and_false, if_neg Bool.false_ne_true]
      exact .pure rfl
  | false =>
      simp only [bindable.isMethod, bindable.ordinary]
      intro before members after run
      have given := methodMember_answers bindable _ _ _ run
      rw [given]
      cases Text.startsWith "operator" (context.tree.decl id).spelling <;> rfl

/-- Whether the methods of a class are given by its children, one after the other. -/
def BindsEachMethod (context : UnitContext) (id : DeclId) (classType : String)
    (members : List Member) : Prop :=
  ∃ pieces, List.Forall₂ (context.GivesMethods classType) (context.tree.children id) pieces ∧
    Member.methods members = pieces.flatten

theorem classMembers_bindsEachMethod (id : DeclId) (classType : String) (inTemplate : Bool) :
    (context.classMembers id classType inTemplate).Answers fun made =>
      context.BindsEachMethod id classType made.1 := by
  have each (isAbstract : Bool) (child : DeclId) :
      (context.childMembers classType isAbstract inTemplate child).Answers fun members =>
        context.GivesMethods classType child (Member.methods members) := by
    intro before members after run
    refine ⟨?_, fun bindable => childMembers_answers_methods isAbstract bindable _ _ _ run⟩
    have own := childMembers_isCalledFrom isAbstract _ _ _ run
    unfold IsCalledFrom at own ⊢
    rwa [Member.targets_methods]
  have implicit : Member.methods (context.implicitConstructor id) = [] :=
    Member.methods_eq_nil_of_targets (implicitConstructor_targets id)
  have iterators := Member.methods_eq_nil_of_targets
    (iteratorBindings_targets context.speller id classType)
  unfold classMembers
  refine .bind (.mapM (each _) _) fun declared given => ?_
  refine .andThen fun _ => .pure ⟨declared.map Member.methods, ?_, ?_⟩
  · exact List.forall₂_map_right_iff.mpr given
  · rw [Member.methods_append, Member.methods_append, implicit, iterators, List.nil_append,
      List.append_nil, Member.methods, List.filter_flatten]
    rfl

end UnitContext

/-- Each method that can be bound is bound.  The methods of a class that is bound, and those of a
class template that has a builder, are given by its children in the order of their declarations:
each method that can be bound gives one, under its configured name or the conventional one, unless
its name begins as the names of operators do or it stands in a system header. -/
theorem bindable_methods_are_bound {depth : Nat} {options : BindOptions} {index : ProjectIndex}
    {unit : SourceUnit} {relative : String} {result : UnitResult}
    (run : generateUnit depth options index unit relative = some result) :
    (∀ binding, .class_ binding ∈ result.bindings.fragments → ∃ id,
      (UnitContext.ofUnit depth unit options index relative).IsVisited id ∧
      ((unit.tree.decl id).kind = .classDecl ∨ (unit.tree.decl id).kind = .structDecl) ∧
      binding.cppType = unit.tree.qualifiedName id ∧
      (UnitContext.ofUnit depth unit options index relative).BindsEachMethod id binding.cppType
        binding.members) ∧
    ∀ builder ∈ result.bindings.builders, ∃ id,
      (UnitContext.ofUnit depth unit options index relative).IsVisited id ∧
      (unit.tree.decl id).kind = .classTemplate ∧
      builder.cppType = unit.tree.qualifiedDisplayName id ∧
      (UnitContext.ofUnit depth unit options index relative).BindsEachMethod id builder.cppType
        builder.members := by
  obtain ⟨progress, visitRun, made⟩ := bindings_of_generateUnit run
  obtain ⟨classes, templates⟩ := UnitContext.exists_members_of_visitUnit visitRun
  constructor
  · intro binding member
    obtain ⟨id, visited, isClass, cppType, _, _, memberRun⟩ := classes binding member
    exact ⟨id, visited, isClass, cppType,
      UnitContext.classMembers_bindsEachMethod _ _ _ _ _ _ memberRun⟩
  · intro builder member
    rw [made] at member
    obtain ⟨id, visited, isTemplate, cppType, _, _, memberRun⟩ := templates builder member
    exact ⟨id, visited, isTemplate, cppType,
      UnitContext.classMembers_bindsEachMethod _ _ _ _ _ _ memberRun⟩

/-- A class with a method, a static method and an operator. -/
def pumpUnit : SourceUnit :=
  .ofSteps [.builtin "void", .add 0 .classDecl "Pump", .function .method 1 "startUp" 0,
    .function .method 1 "operator()" 0, .staticMethod 1 "count" 0]

def pumpMethods : List Member :=
  [.method ⟨"start_up", "&Pump::startUp", none, [], false⟩,
   .method ⟨"call", "&Pump::operator()", none, [], false⟩,
   .singletonFunction ⟨"count", "&Pump::count", none, [], false⟩]

theorem pump_methods_are_bound :
    ∃ result binding id, generateUnit 0 .plain .empty pumpUnit "unit.hpp" = some result ∧
      .class_ binding ∈ result.bindings.fragments ∧
      Member.methods binding.members = pumpMethods ∧
      (UnitContext.ofUnit 0 pumpUnit .plain .empty "unit.hpp").BindsEachMethod id binding.cppType
        binding.members := by
  have made : (generateUnit 0 .plain .empty pumpUnit "unit.hpp").map (·.bindings.fragments) =
      some [.class_ ⟨"rb_cPump", "Pump", "Pump", none, .global, [],
        .constructor [] [] :: pumpMethods, []⟩] := by
    decide +kernel
  obtain ⟨result, run, fragments⟩ := Option.map_eq_some_iff.mp made
  have member : .class_ ⟨"rb_cPump", "Pump", "Pump", none, .global, [],
      .constructor [] [] :: pumpMethods, []⟩ ∈ result.bindings.fragments := by
    rw [fragments]
    exact List.mem_singleton_self _
  obtain ⟨id, -, -, -, binds⟩ := (bindable_methods_are_bound run).1 _ member
  exact ⟨result, _, id, run, member, rfl, binds⟩

/-- A class with a method whose name begins as the names of operators do. -/
def operatorizeUnit : SourceUnit :=
  .ofSteps [.builtin "void", .add 0 .classDecl "A", .function .method 1 "operatorize" 0]

def operatorizeContext : UnitContext :=
  .ofUnit 0 operatorizeUnit .plain .empty "unit.hpp"

theorem operatorize_isIdentifier : Text.IsIdentifier "operatorize" where
  nonempty := by decide
  plain := List.all_eq_true.mp (by decide)
  letter := by decide

theorem operatorize_isBindable : operatorizeContext.IsBindable 2 where
  isMethod := by decide +kernel
  isPublic := by decide +kernel
  undeleted := by decide +kernel
  inUnit := by decide +kernel
  kept := by decide +kernel
  named := by
    have spelled : (operatorizeContext.tree.decl 2).spelling = "operatorize" := by decide +kernel
    rw [spelled]
    exact operatorize_isIdentifier
  ordinary := by decide +kernel
  fixed := by decide +kernel
  typed := by
    have none : operatorizeContext.tree.parameters 2 = [] := by decide +kernel
    rw [none]
    exact nofun
  clean := fun _ _ => rfl

/-- The method can be bound and is not. -/
theorem operator_like_method_is_left_out :
    ∃ result, generateUnit 0 .plain .empty operatorizeUnit "unit.hpp" = some result ∧
      2 ∈ operatorizeUnit.tree.children 1 ∧ operatorizeContext.IsBindable 2 ∧
      result.bindings.fragments = [.class_ ⟨"rb_cA", "A", "A", none, .global, [],
        [.constructor [] []], []⟩] := by
  have made : (generateUnit 0 .plain .empty operatorizeUnit "unit.hpp").map
      (·.bindings.fragments) = some [.class_ ⟨"rb_cA", "A", "A", none, .global, [],
        [.constructor [] []], []⟩] := by
    decide +kernel
  obtain ⟨result, run, fragments⟩ := Option.map_eq_some_iff.mp made
  exact ⟨result, run, by decide +kernel, operatorize_isBindable, fragments⟩

end Bindery
