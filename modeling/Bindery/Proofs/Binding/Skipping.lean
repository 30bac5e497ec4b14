import Bindery.Proofs.Binding.Provenance

/-!
# Skipped declarations

Everything that is generated stems from declarations, apart from implicit constructors and from
instantiations that no typedef names.  Most handlers look up the skip rules of their declaration
first, and what they give stems from declarations that no rule skips.  Constructors, iterators,
the values of enums and the modules that are made out of turn come about without that look.
-/

set_option autoImplicit false
set_option maxRecDepth 100000

namespace Bindery

/-! ## Generated items -/

/-- Something that is generated: a fragment, a value of the enum of a C++ type, an opaque class, a
member of the class or class template spelled `owner`, a builder, or a free operator of a type. -/
inductive Item where
  | fragment (fragment : Fragment)
  | value (enum : String) (value : String × String)
  | opaque_ (inner : OpaqueClass)
  | member (owner : String) (member : Member)
  | builder (builder : Builder)
  | operator (cppType : String) (lambda : Lambda)
deriving DecidableEq

/-- A fragment and what is inside it. -/
def Fragment.items : Fragment → List Item
  | class_ binding =>
      .fragment (.class_ binding) :: binding.opaqueClasses.map .opaque_
        ++ binding.members.map (.member binding.cppType)
  | enum identifier name cppType parent values =>
      .fragment (.enum identifier name cppType parent values) :: values.map (.value cppType)
  | other => [.fragment other]

def Builder.items (builder : Builder) : List Item :=
  .builder builder :: builder.members.map (.member builder.cppType)

def OperatorGroup.items (group : OperatorGroup) : List Item :=
  group.operators.map (.operator group.cppType)

def UnitBindings.items (bindings : UnitBindings) : List Item :=
  bindings.fragments.flatMap Fragment.items ++ bindings.builders.flatMap Builder.items
    ++ bindings.operators.flatMap OperatorGroup.items

namespace UnitContext

def enumValue (context : UnitContext) (scope : String) (value : DeclId) : String × String :=
  let spelling := (context.tree.decl value).spelling
  (Name.constant spelling, if scope.isEmpty then spelling else scope ++ "::" ++ spelling)

/-- The fragment for a value of an enum without a name. -/
def looseValue (context : UnitContext) (id value : DeclId) (parent : Parent) : Fragment :=
  .constant parent (context.enumValue (context.enumScope id) value).1
    (context.enumValue (context.enumScope id) value).2

/-- The member for a value of an enum without a name in a class. -/
def memberValue (context : UnitContext) (owner : String) (value : DeclId) : Member :=
  .constant (Name.constant (context.tree.decl value).spelling)
    (owner ++ "::" ++ (context.tree.decl value).spelling)

/-- Whether a class or class template that the traversal comes to is spelled so in its members. -/
def Owns (context : UnitContext) (id : DeclId) (owner : String) : Prop :=
  context.IsVisited id ∧
    ((context.tree.decl id).kind.isRecord ∧ owner = context.tree.qualifiedName id ∨
      (context.tree.decl id).kind = .classTemplate ∧ owner = context.tree.qualifiedDisplayName id)

/-- Which declarations a generated item stems from. -/
inductive StemsFrom (context : UnitContext) : Item → List DeclId → Prop
  | module_ {id : DeclId} {parent : Parent}
      (isNamespace : (context.tree.decl id).kind = .namespaceDecl) :
      StemsFrom context (.fragment (context.moduleOf id parent)) [id]
  | class_ {id : DeclId} {binding : ClassBinding} (record : (context.tree.decl id).kind.isRecord)
      (typed : binding.cppType = context.tree.qualifiedName id) :
      StemsFrom context (.fragment (.class_ binding)) [id]
  | opaque_ {id : DeclId} {inner : OpaqueClass} (record : (context.tree.decl id).kind.isRecord)
      (typed : inner.cppType = context.tree.qualifiedName id) :
      StemsFrom context (.opaque_ inner) [id]
  | enum {id : DeclId} {identifier name : String} {parent : Parent}
      {values : List (String × String)} (isEnum : (context.tree.decl id).kind = .enumDecl) :
      StemsFrom context
        (.fragment (.enum identifier name (context.tree.qualifiedName id) parent values)) [id]
  /-- The value of an enum with a name. -/
  | value {id value : DeclId} (isEnum : (context.tree.decl id).kind = .enumDecl)
      (child : value ∈ context.tree.children id) :
      StemsFrom context
        (.value (context.tree.qualifiedName id)
          (context.enumValue (context.tree.qualifiedName id) value)) [value]
  /-- The value of an enum without a name outside classes. -/
  | looseValue {id value : DeclId} {parent : Parent}
      (isEnum : (context.tree.decl id).kind = .enumDecl)
      (child : value ∈ context.tree.children id) :
      StemsFrom context (.fragment (context.looseValue id value parent)) [value]
  /-- The value of an enum without a name in a class. -/
  | memberValue {outer id value : DeclId} {owner : String} (owns : context.Owns outer owner)
      (inside : id ∈ context.tree.children outer)
      (isEnum : (context.tree.decl id).kind = .enumDecl)
      (child : value ∈ context.tree.children id) :
      StemsFrom context (.member owner (context.memberValue owner value)) [value]
  | named {id template : DeclId} {cppType name : String} {args : List String}
      {base : Option String} {parent : Parent} {builder : Option BuilderCall}
      (names : context.namedInstantiation? id = some (template, cppType, args)) :
      StemsFrom context
        (.fragment (.instantiation (Name.classIdentifier (context.tree.qualifiedName id)) name
          cppType base parent builder)) [id, template]
  /-- An instantiation that no typedef names stems from its use. -/
  | synthesized {template : DeclId} {cppType name : String} {args : List String}
      {base : Option String} {parent : Parent} {builder : Option BuilderCall}
      (needed : context.Spells template args cppType)
      (admitted : context.admits template cppType args = true) :
      StemsFrom context
        (.fragment (.instantiation (context.synthesizedIdentifier template args) name cppType base
          parent builder)) []
  | function {id : DeclId} {parent : Parent} {callable : Callable}
      (isFunction : (context.tree.decl id).kind = .functionDecl)
      (named : callable.cppName = "&" ++ context.tree.qualifiedName id) :
      StemsFrom context (.fragment (.function parent callable)) [id]
  | constant {id : DeclId} {parent : Parent} {name : String}
      (isVariable : (context.tree.decl id).kind = .varDecl) :
      StemsFrom context (.fragment (.constant parent name (context.tree.qualifiedName id))) [id]
  | variable_ {id : DeclId} {parent : Parent} {name : String} {readOnly : Bool}
      (isVariable : (context.tree.decl id).kind = .varDecl) :
      StemsFrom context
        (.fragment (.variable_ parent name ("&" ++ context.tree.qualifiedName id) readOnly)) [id]
  | member {id child : DeclId} {owner : String} {member : Member} (owns : context.Owns id owner)
      (inside : child ∈ context.tree.children id) (gives : context.GivesMember owner child member)
      (notEnum : (context.tree.decl child).kind ≠ .enumDecl) :
      StemsFrom context (.member owner member) [child]
  | iterator {id start stop : DeclId} {owner first last name : String} {isConst : Bool}
      {signature : Option String} (owns : context.Owns id owner)
      (begins : context.tree.boundMethod? id first isConst = some start)
      (ends : context.tree.boundMethod? id last isConst = some stop) :
      StemsFrom context
        (.member owner (.iterator name ("&" ++ owner ++ "::" ++ first)
          ("&" ++ owner ++ "::" ++ last) signature)) [start, stop]
  /-- A class without a constructor of its own. -/
  | implicit {id : DeclId} {owner : String} (owns : context.Owns id owner)
      (without :
        ∀ child ∈ context.tree.children id, (context.tree.decl child).kind ≠ .constructor) :
      StemsFrom context (.member owner (.constructor [] [])) []
  | builder {id : DeclId} {builder : Builder}
      (isTemplate : (context.tree.decl id).kind = .classTemplate)
      (named : builder.name = Name.builder (context.tree.qualifiedName id)) :
      StemsFrom context (.builder builder) [id]
  | operator {id : DeclId} {operator : FreeOperator}
      (isFunction : (context.tree.decl id).kind = .functionDecl)
      (found : context.speller.freeOperator? id = some operator) :
      StemsFrom context (.operator operator.target operator.lambda) [id]

/-- Whether an item stems from declarations that no rule skips. -/
def Honours (context : UnitContext) (item : Item) : Prop :=
  ∃ ids, context.StemsFrom item ids ∧ ∀ id ∈ ids, context.skipRule? id = none

/-- The items that come about without a look at the skip rules. -/
inductive IsUnchecked (context : UnitContext) : Item → Prop
  | constructor {owner : String} {types : List String} {args : List Argument} :
      IsUnchecked context (.member owner (.constructor types args))
  | iterator {owner name first last : String} {signature : Option String} :
      IsUnchecked context (.member owner (.iterator name first last signature))
  | value {enum : String} {value : String × String} : IsUnchecked context (.value enum value)
  | looseValue {id value : DeclId} {parent : Parent}
      (isEnum : (context.tree.decl id).kind = .enumDecl)
      (child : value ∈ context.tree.children id) :
      IsUnchecked context (.fragment (context.looseValue id value parent))
  | memberValue {id value : DeclId} {owner : String}
      (isEnum : (context.tree.decl id).kind = .enumDecl)
      (child : value ∈ context.tree.children id) :
      IsUnchecked context (.member owner (context.memberValue owner value))
  /-- The module of a namespace around the template of an instantiation that is needed. -/
  | enclosing {id template : DeclId} {parent : Parent} {cppType : String} {args : List String}
      (needed : context.Spells template args cppType)
      (inside : context.tree.IsInside template id) :
      IsUnchecked context (.fragment (context.moduleOf id parent))

/-- Whether an item stems from declarations, and from ones that no rule skips if the rules have been
looked up. -/
def IsSettled (context : UnitContext) (item : Item) : Prop :=
  ∃ ids, context.StemsFrom item ids ∧
    (context.IsUnchecked item ∨ ∀ id ∈ ids, context.skipRule? id = none)

variable {context : UnitContext} {unit : UnitState}

theorem isSettled_of_unskipped {item : Item} {id : DeclId} (stems : context.StemsFrom item [id])
    (kept : context.skipRule? id = none) : context.IsSettled item :=
  ⟨[id], stems, .inr (List.forall_mem_singleton.mpr kept)⟩

theorem isSettled_of_unchecked {item : Item} {ids : List DeclId}
    (stems : context.StemsFrom item ids) (unchecked : context.IsUnchecked item) :
    context.IsSettled item :=
  ⟨ids, stems, .inl unchecked⟩

/-! ## Members -/

section

variable {id : DeclId} {owner : String} (owns : context.Owns id owner)
include owns

theorem isSettled_enumConstant {inner : DeclId} {member : Member}
    (inside : inner ∈ context.tree.children id)
    (isEnum : (context.tree.decl inner).kind = .enumDecl)
    (given : member ∈ context.enumConstants inner owner) :
    context.IsSettled (.member owner member) := by
  obtain ⟨value, child, rfl⟩ := List.mem_map.mp given
  exact isSettled_of_unchecked (.memberValue owns inside isEnum child) (.memberValue isEnum child)

theorem Contributes.isSettled {child : DeclId} {member : Member}
    (inside : child ∈ context.tree.children id)
    (contributes : context.Contributes owner child member) :
    context.IsSettled (.member owner member) := by
  obtain ⟨gives, -, guarded⟩ := contributes
  have settles (notConstructor : (context.tree.decl child).kind ≠ .constructor)
      (notEnum : (context.tree.decl child).kind ≠ .enumDecl) :
      context.IsSettled (.member owner member) :=
    isSettled_of_unskipped (.member owns inside gives notEnum) (guarded ⟨notConstructor, notEnum⟩)
  cases gives with
  | constructor isConstructor has =>
      have notEnum : (context.tree.decl child).kind ≠ .enumDecl := by
        rw [isConstructor]
        nofun
      exact isSettled_of_unchecked
        (.member owns inside (.constructor isConstructor has) notEnum) .constructor
  | method isMethod => exact settles (by rw [isMethod]; nofun) (by rw [isMethod]; nofun)
  | conversion isConversion =>
      exact settles (by rw [isConversion]; nofun) (by rw [isConversion]; nofun)
  | field isField => exact settles (by rw [isField]; nofun) (by rw [isField]; nofun)
  | constant isVariable => exact settles (by rw [isVariable]; nofun) (by rw [isVariable]; nofun)
  | static isVariable => exact settles (by rw [isVariable]; nofun) (by rw [isVariable]; nofun)
  | enumValue isEnum given => exact isSettled_enumConstant owns inside isEnum given

theorem IsMemberOf.isSettled {member : Member} (isMember : context.IsMemberOf id owner member) :
    context.IsSettled (.member owner member) := by
  rcases isMember with implicit | ⟨child, inside, contributes⟩ | iterator
  · obtain ⟨rfl, without⟩ := of_mem_implicitConstructor implicit
    exact isSettled_of_unchecked (.implicit owns without) .constructor
  · exact contributes.isSettled owns inside
  · obtain ⟨_, _, _, _, _, start, stop, rfl, begins, ends⟩ :=
      exists_pair_of_mem_iterators iterator
    exact isSettled_of_unchecked (.iterator owns begins ends) .iterator

end

/-! ## Fragments, builders and operators -/

theorem IsEntered.skipRule?_eq_none {id : DeclId} (entered : context.IsEntered id)
    (record : (context.tree.decl id).kind.isRecord) : context.skipRule? id = none := by
  unfold IsEntered at entered
  dsimp only at entered
  split at entered
  case h_1 isNamespace => rw [isNamespace] at record; cases record
  case h_2 isLinkage => rw [isLinkage] at record; cases record
  case h_3 => exact entered.2.1
  case h_4 => exact entered.2.1
  case h_5 => cases entered

theorem IsMade.isSettled {fragment : Fragment} (made : context.IsMade unit fragment) :
    ∀ item ∈ fragment.items, context.IsSettled item := by
  cases made with
  | module_ visited isNamespace kept =>
      exact List.forall_mem_singleton.mpr (isSettled_of_unskipped (.module_ isNamespace) kept)
  | enclosing needed inside isNamespace =>
      exact List.forall_mem_singleton.mpr
        (isSettled_of_unchecked (.module_ isNamespace) (.enclosing needed inside))
  | class_ visited entered record home inner given =>
      have kept := entered.skipRule?_eq_none record
      refine List.forall_mem_cons.mpr ⟨isSettled_of_unskipped (.class_ record rfl) kept, ?_⟩
      refine List.forall_mem_append.mpr ⟨List.forall_mem_map.mpr fun found member => ?_,
        List.forall_mem_map.mpr fun found member => ?_⟩
      · obtain ⟨child, -, isRecord, unskipped, rfl⟩ := inner found member
        exact isSettled_of_unskipped (.opaque_ isRecord rfl) unskipped
      · exact (given found member).isSettled ⟨visited, .inl ⟨record, rfl⟩⟩
  | enum visited isEnum kept =>
      refine List.forall_mem_cons.mpr ⟨isSettled_of_unskipped (.enum isEnum) kept, ?_⟩
      refine List.forall_mem_map.mpr fun value member => ?_
      obtain ⟨child, listed, rfl⟩ := List.mem_map.mp member
      exact isSettled_of_unchecked (.value isEnum (List.mem_of_mem_filter listed)) .value
  | enumValue visited isEnum member =>
      obtain ⟨child, listed, rfl⟩ := List.mem_map.mp member
      have inside := List.mem_of_mem_filter listed
      exact List.forall_mem_singleton.mpr
        (isSettled_of_unchecked (.looseValue isEnum inside) (.looseValue isEnum inside))
  | named visited isTypedef names kept templateKept =>
      refine List.forall_mem_singleton.mpr ⟨_, .named names, .inr ?_⟩
      exact List.forall_mem_cons.mpr ⟨kept, List.forall_mem_singleton.mpr templateKept⟩
  | synthesized needed admitted =>
      exact List.forall_mem_singleton.mpr ⟨[], .synthesized needed admitted, .inr nofun⟩
  | function visited isFunction kept =>
      exact List.forall_mem_singleton.mpr (isSettled_of_unskipped (.function isFunction rfl) kept)
  | constant visited isVariable kept =>
      exact List.forall_mem_singleton.mpr (isSettled_of_unskipped (.constant isVariable) kept)
  | variable_ visited isVariable kept =>
      exact List.forall_mem_singleton.mpr (isSettled_of_unskipped (.variable_ isVariable) kept)

theorem IsBuilderOf.isSettled {id : DeclId} {builder : Builder}
    (made : context.IsBuilderOf id builder) : ∀ item ∈ builder.items, context.IsSettled item := by
  obtain ⟨visited, isTemplate, kept, -, named, typed, given⟩ := made
  refine List.forall_mem_cons.mpr ⟨isSettled_of_unskipped (.builder isTemplate named) kept, ?_⟩
  refine List.forall_mem_map.mpr fun member listed => ?_
  rw [typed]
  exact (given member listed).isSettled ⟨visited, .inr ⟨isTemplate, rfl⟩⟩

theorem IsOperatorOf.isSettled {id : DeclId} {operator : FreeOperator}
    (made : context.IsOperatorOf id operator) :
    context.IsSettled (.operator operator.target operator.lambda) := by
  obtain ⟨-, isFunction, kept, -, found⟩ := made
  exact isSettled_of_unskipped (.operator isFunction found) kept

/-- What holds of all that comes about by a rule holds of everything that is generated. -/
theorem forall_items_of_visitUnit {holds : Item → Prop} {fragments : List Fragment}
    {progress : Progress}
    (run : context.visitUnit.run ⟨UnitState.empty, []⟩ = some (fragments, progress))
    (ofFragment : ∀ {fragment}, context.IsMade progress.unit fragment →
      ∀ item ∈ fragment.items, holds item)
    (ofBuilder : ∀ {id builder}, context.IsBuilderOf id builder →
      ∀ item ∈ builder.items, holds item)
    (ofOperator : ∀ {id} {operator : FreeOperator}, context.IsOperatorOf id operator →
      holds (.operator operator.target operator.lambda)) :
    ∀ item ∈ (context.bindings fragments progress.unit).items, holds item := by
  obtain ⟨accountable, made⟩ := visitUnit_made run
  refine List.forall_mem_append.mpr ⟨List.forall_mem_append.mpr ⟨?_, ?_⟩, ?_⟩
  · exact List.forall_mem_flatMap.mpr fun fragment member => ofFragment (made fragment member)
  · refine List.forall_mem_flatMap.mpr fun builder member => ?_
    obtain ⟨id, isBuilder⟩ := accountable.builders builder member
    exact ofBuilder isBuilder
  · refine List.forall_mem_flatMap.mpr fun group member => ?_
    obtain ⟨entry, waits, rfl⟩ := List.mem_map.mp member
    refine List.forall_mem_map.mpr fun lambda listed => ?_
    obtain ⟨id, isOperator⟩ := accountable.operators entry waits lambda listed
    exact ofOperator isOperator

/-- Everything that is generated for a unit stems from declarations, and from ones that no rule skips
if the rules have been looked up. -/
theorem isSettled_of_visitUnit {fragments : List Fragment} {progress : Progress}
    (run : context.visitUnit.run ⟨UnitState.empty, []⟩ = some (fragments, progress)) :
    ∀ item ∈ (context.bindings fragments progress.unit).items, context.IsSettled item :=
  forall_items_of_visitUnit run IsMade.isSettled IsBuilderOf.isSettled IsOperatorOf.isSettled

end UnitContext

/-- Everything that is generated for a unit stems from declarations, and from ones that no rule skips
unless it is a constructor, an iterator, a value or a module that comes about without a look at the
rules.  So all of it honours the rules if and only if those do. -/
theorem skip_rules_are_honoured_iff {depth : Nat} {options : BindOptions} {index : ProjectIndex}
    {unit : SourceUnit} {relative : String} {result : UnitResult}
    (run : generateUnit depth options index unit relative = some result) :
    (∀ item ∈ result.bindings.items,
        (∃ ids, (UnitContext.ofUnit depth unit options index relative).StemsFrom item ids) ∧
          ((UnitContext.ofUnit depth unit options index relative).IsUnchecked item ∨
            (UnitContext.ofUnit depth unit options index relative).Honours item)) ∧
      ((∀ item ∈ result.bindings.items,
          (UnitContext.ofUnit depth unit options index relative).Honours item) ↔
        ∀ item ∈ result.bindings.items,
          (UnitContext.ofUnit depth unit options index relative).IsUnchecked item →
          (UnitContext.ofUnit depth unit options index relative).Honours item) := by
  obtain ⟨progress, visitRun, made⟩ := bindings_of_generateUnit run
  have settled := UnitContext.isSettled_of_visitUnit visitRun
  rw [← made] at settled
  refine ⟨fun item member => ?_, fun honours item member _ => honours item member,
    fun unchecked item member => ?_⟩
  · obtain ⟨ids, stems, isUnchecked | kept⟩ := settled item member
    · exact ⟨⟨ids, stems⟩, .inl isUnchecked⟩
    · exact ⟨⟨ids, stems⟩, .inr ⟨ids, stems, kept⟩⟩
  · obtain ⟨ids, stems, isUnchecked | kept⟩ := settled item member
    · exact unchecked item member isUnchecked
    · exact ⟨ids, stems, kept⟩

/-- The options of a run in which a rule skips what is called `hidden`. -/
def skippingHidden : BindOptions :=
  { BindOptions.plain with skip := ⟨⟨[("hidden", .skip)], []⟩, ["hidden"]⟩ }

/-- A class with two methods. -/
def hidingUnit : SourceUnit :=
  .ofSteps [.add 0 .classDecl "A", .builtin "void", .function .method 1 "shown" 0,
    .function .method 1 "hidden" 0]

def hidingContext : UnitContext :=
  .ofUnit 0 hidingUnit skippingHidden .empty "unit.hpp"

def hidingItems : List Item :=
  let shown : Member := .method ⟨"shown", "&A::shown", none, [], false⟩
  [.fragment (.class_ ⟨"rb_cA", "A", "A", none, .global, [], [.constructor [] [], shown], []⟩),
   .member "A" (.constructor [] []), .member "A" shown]

theorem hidden_method_is_left_out :
    ∃ result, generateUnit 0 skippingHidden .empty hidingUnit "unit.hpp" = some result ∧
      result.bindings.items = hidingItems ∧
      ∀ item ∈ result.bindings.items, hidingContext.Honours item := by
  have made : (generateUnit 0 skippingHidden .empty hidingUnit "unit.hpp").map
      (·.bindings.items) = some hidingItems := by
    decide +kernel
  obtain ⟨result, run, items⟩ := Option.map_eq_some_iff.mp made
  refine ⟨result, run, items, (skip_rules_are_honoured_iff run).2.mpr ?_⟩
  change ∀ item ∈ _, hidingContext.IsUnchecked item → hidingContext.Honours item
  rw [items]
  have owns : hidingContext.Owns 1 "A" := by
    refine ⟨.top ?_ ?_, .inl ?_⟩ <;> decide +kernel
  have without : ∀ child ∈ hidingContext.tree.children 1,
      (hidingContext.tree.decl child).kind ≠ .constructor := by
    decide +kernel
  intro item member unchecked
  simp only [hidingItems, List.mem_cons, List.not_mem_nil, or_false] at member
  rcases member with rfl | rfl | rfl
  · nomatch unchecked
  · exact ⟨[], .implicit owns without, nofun⟩
  · nomatch unchecked

/-- The options under which a rule skips the constructors of a class. -/
def skippingConstructors : BindOptions :=
  { BindOptions.plain with skip := ⟨⟨[("A::A", .skip)], []⟩, ["A", "A::A"]⟩ }

theorem ofConfig_skippingConstructors :
    BindOptions.ofConfig ⟨["A::A"], [], [], none⟩ = .ok skippingConstructors := by
  have rules : RuleTable.skips ["A::A"] = .ok ⟨[("A::A", .skip)], []⟩ := by
    decide +kernel
  have words : SymbolFilter.wordsOf "A::A" = ["A::A", "A"] := by
    decide +kernel
  have sorted : (["A::A", "A"].mergeSort fun a b => a ≤ b) = ["A", "A::A"] := by
    rw [List.mergeSort]
    simp [List.MergeSort.Internal.splitInTwo]
  have filter : SymbolFilter.ofRules ⟨[("A::A", .skip)], []⟩ = skippingConstructors.skip := by
    change SymbolFilter.mk _ ((["A::A"].flatMap SymbolFilter.wordsOf).mergeSort _).eraseReps = _
    rw [List.flatMap_singleton, words, sorted]
    rfl
  have renames : RuleTable.renames [] = .ok .empty := rfl
  rw [BindOptions.ofConfig, rules, renames]
  change Except.ok (BindOptions.mk (SymbolFilter.ofRules _) _ _ _) = _
  rw [filter]
  rfl

/-- A class with a constructor. -/
def constructorUnit : SourceUnit :=
  .ofSteps [.add 0 .classDecl "A", .builtin "int", .constructor 1, .param 2 "size" 0]

def constructorContext : UnitContext :=
  .ofUnit 0 constructorUnit skippingConstructors .empty "unit.hpp"

theorem constructorContext_kinds (id : DeclId) :
    (constructorContext.tree.decl id).kind ≠ .method ∧
      ((constructorContext.tree.decl id).kind = .constructor →
        constructorContext.skipRule? id ≠ none) := by
  by_cases inside : id < 4
  · have each : ∀ id < 4, (constructorContext.tree.decl id).kind ≠ .method ∧
        ((constructorContext.tree.decl id).kind = .constructor →
          constructorContext.skipRule? id ≠ none) := by
      decide +kernel
    exact each id inside
  · have outside : constructorContext.tree.size ≤ id := by
      refine le_trans ?_ (Nat.le_of_not_lt inside)
      decide +kernel
    rw [DeclTree.decl_of_size_le outside]
    exact ⟨nofun, nofun⟩

/-- The constructor is bound although a rule skips it. -/
theorem skipped_constructor_is_bound :
    BindOptions.ofConfig ⟨["A::A"], [], [], none⟩ = .ok skippingConstructors ∧
      ∃ result, generateUnit 0 skippingConstructors .empty constructorUnit "unit.hpp" =
        some result ∧
      ∃ item ∈ result.bindings.items,
        item = .member "A" (.constructor ["int"] [⟨"size", none⟩]) ∧
        ¬ constructorContext.Honours item := by
  have made : (generateUnit 0 skippingConstructors .empty constructorUnit "unit.hpp").map
      (fun result => decide (.member "A" (.constructor ["int"] [⟨"size", none⟩]) ∈
        result.bindings.items)) = some true := by
    decide +kernel
  obtain ⟨result, run, decided⟩ := Option.map_eq_some_iff.mp made
  refine ⟨ofConfig_skippingConstructors, result, run, _, of_decide_eq_true decided, rfl, ?_⟩
  rintro ⟨ids, stems, kept⟩
  cases stems with
  | @member id child owner member owns inside gives notEnum =>
      obtain ⟨notMethod, skipped⟩ := constructorContext_kinds child
      generalize shape : Member.constructor ["int"] [⟨"size", none⟩] = member at gives
      cases gives with
      | constructor isConstructor => exact skipped isConstructor (kept child List.mem_cons_self)
      | method isMethod => exact notMethod isMethod
      | enumValue isEnum => exact notEnum isEnum
      | _ => cases shape

end Bindery
