import Bindery.Proofs.Binding.Propagation
import Bindery.Proofs.Rules.Renames

/-!
# Configured names

Most of what is generated has the name that the rules give to its declaration, if they give one.
The values of enums, operators, conversions and iterators have their conventional names whatever the
rules say.
-/

set_option autoImplicit false
set_option maxRecDepth 100000

namespace Bindery

/-- The Ruby name that an item gives to its declaration.  Constructors and builders have none, nor
does the setter beside an index operator name a declaration. -/
def Item.rubyName? : Item → Option String
  | fragment (.module_ _ name _) => some name
  | fragment (.class_ binding) => some binding.name
  | fragment (.enum _ name _ _ _) => some name
  | fragment (.instantiation _ name _ _ _ _) => some name
  | fragment (.function _ callable) => some callable.name
  | fragment (.constant _ name _) => some name
  | fragment (.variable_ _ name _ _) => some name
  | value _ entry => some entry.1
  | opaque_ inner => some inner.name
  | member _ (.constructor _ _) => none
  | member _ (.method callable) => some callable.name
  | member _ (.singletonFunction callable) => some callable.name
  | member _ (.attribute name _ _) => some name
  | member _ (.singletonAttribute name _ _) => some name
  | member _ (.constant name _) => some name
  | member _ (.iterator name _ _ _) => some name
  | member _ (.lambda _) => none
  | builder _ => none
  | operator _ lambda => some lambda.name

/-- A free operator prints its object or has the conventional name of its symbol. -/
theorem Speller.name_of_freeOperator? {speller : Speller} {function : DeclId}
    {operator : FreeOperator} (found : speller.freeOperator? function = some operator) :
    operator.lambda.name = "to_s" ∨
      ∃ symbol operands, Name.operator? symbol operands = some operator.lambda.name := by
  obtain ⟨symbol, -, rest⟩ := Option.bind_eq_some_iff.mp found
  obtain ⟨types, -, rest⟩ := Option.bind_eq_some_iff.mp rest
  cases types with
  | nil => cases rest
  | cons first others =>
      dsimp only at rest
      split at rest
      case isTrue =>
        obtain ⟨printed, -, rest⟩ := Option.bind_eq_some_iff.mp rest
        split at rest
        case isTrue =>
          cases rest
          exact .inl rfl
        case isFalse => cases rest
      case isFalse =>
        split at rest
        case isTrue =>
          obtain ⟨name, named, rest⟩ := Option.bind_eq_some_iff.mp rest
          obtain ⟨lambda, made, rest⟩ := Option.bind_eq_some_iff.mp rest
          cases rest
          refine .inr ⟨symbol, _, named.trans (congrArg some ?_)⟩
          unfold operatorLambda? at made
          split at made
          · cases made
            rfl
          · cases made
            rfl
          · cases made
        case isFalse => cases rest

theorem DeclTree.isMethod_of_boundMethod? {tree : DeclTree} {id start : DeclId} {name : String}
    {isConst : Bool} (found : tree.boundMethod? id name isConst = some start) :
    (tree.decl start).kind = .method := by
  have fits := List.find?_some found
  simp only [Bool.and_eq_true, beq_iff_eq] at fits
  exact fits.1.1.1.1.1.1

namespace UnitContext

/-- The name that the rules give to a declaration. -/
def renamed? (context : UnitContext) (id : DeclId) : Option String :=
  context.options.namer.renamed (context.tree.decl id).spelling (context.tree.qualifiedName id)

/-- Which items have a conventional name for a declaration. -/
inductive Conventional (context : UnitContext) : Item → DeclId → Prop
  | value {enum scope : String} {id : DeclId} :
      Conventional context (.value enum (context.enumValue scope id)) id
  | looseValue {id value : DeclId} {parent : Parent} :
      Conventional context (.fragment (context.looseValue id value parent)) value
  | memberValue {owner : String} {value : DeclId} :
      Conventional context (.member owner (context.memberValue owner value)) value
  | operator {owner symbol : String} {id : DeclId} {member : Member}
      (isMethod : (context.tree.decl id).kind = .method)
      (symbolic : operatorSymbol? (context.tree.decl id).spelling = some symbol)
      (named : (Item.member owner member).rubyName? =
        Name.operator? symbol ((context.tree.parameters id).length + 1)) :
      Conventional context (.member owner member) id
  | conversion {owner cppName : String} {id : DeclId} {result : TypeId}
      {signature : Option String} {args : List Argument} {returnsBuffer : Bool}
      (isConversion : (context.tree.decl id).kind = .conversion)
      (converts : (context.tree.decl id).resultType = some result) :
      Conventional context (.member owner (.method
        ⟨Name.conversion (context.speller.spell result), cppName, signature, args,
          returnsBuffer⟩)) id
  | iterator {owner name first last : String} {signature : Option String} {id : DeclId}
      (isMethod : (context.tree.decl id).kind = .method) :
      Conventional context (.member owner (.iterator name first last signature)) id
  | freeOperator {id : DeclId} {operator : FreeOperator}
      (found : context.speller.freeOperator? id = some operator)
      (named : operator.lambda.name = "to_s" ∨
        ∃ symbol operands, Name.operator? symbol operands = some operator.lambda.name) :
      Conventional context (.operator operator.target operator.lambda) id

/-- Whether an item has the conventional name for the declaration from which it stems. -/
def KeepsConvention (context : UnitContext) (item : Item) : Prop :=
  ∃ id others, context.StemsFrom item (id :: others) ∧ context.Conventional item id

/-- Whether an item has the name that the rules give to the declaration from which it stems, if they
give one. -/
inductive TakesRename (context : UnitContext) : Item → Prop
  | own {item : Item} {id : DeclId} {others : List DeclId}
      (stems : context.StemsFrom item (id :: others))
      (takes : ∀ new, context.renamed? id = some new → item.rubyName? = some new) :
      TakesRename context item
  /-- An instantiation that no typedef names adds its arguments to the name of its template. -/
  | synthesized {template : DeclId} {identifier cppType name : String} {args : List String}
      {base : Option String} {parent : Parent} {builder : Option BuilderCall}
      (needed : context.Spells template args cppType)
      (takes : ∀ new, context.renamed? template = some new →
        name = new ++ Name.argumentSuffix args) :
      TakesRename context (.fragment (.instantiation identifier name cppType base parent builder))

/-- Whether the name of an item is either the conventional one or the configured one. -/
def IsNamed (context : UnitContext) (item : Item) : Prop :=
  item.rubyName?.isSome → context.KeepsConvention item ∨ context.TakesRename item

variable {context : UnitContext} {unit : UnitState}

theorem isNamed_of_nameless {item : Item} (nameless : item.rubyName? = none) :
    context.IsNamed item := by
  intro named
  rw [nameless] at named
  cases named

theorem isNamed_of_getD {item : Item} {id : DeclId} {others : List DeclId} (convention : String)
    (stems : context.StemsFrom item (id :: others))
    (named : item.rubyName? = some ((context.renamed? id).getD convention)) :
    context.IsNamed item := by
  refine fun _ => .inr (.own stems fun new renamed => ?_)
  rw [named, renamed, Option.getD_some]

theorem isNamed_of_className {item : Item} {id : DeclId} {others : List DeclId}
    (stems : context.StemsFrom item (id :: others))
    (named : item.rubyName? = some (context.options.namer.className
      (context.tree.decl id).spelling (context.tree.qualifiedName id))) :
    context.IsNamed item := by
  unfold Namer.className at named
  exact isNamed_of_getD _ stems named

theorem isNamed_of_conventional {item : Item} {id : DeclId} {others : List DeclId}
    (stems : context.StemsFrom item (id :: others)) (conventional : context.Conventional item id) :
    context.IsNamed item :=
  fun _ => .inl ⟨id, others, stems, conventional⟩

/-! ## Members -/

/-- A method takes the configured name, and an operator the conventional one. -/
theorem isNamed_of_methodName? {owner : String} {member : Member} {id : DeclId}
    (stems : context.StemsFrom (.member owner member) [id])
    (isMethod : (context.tree.decl id).kind = .method)
    (named : (Item.member owner member).rubyName? = context.methodName? id) :
    context.IsNamed (.member owner member) := by
  unfold methodName? at named
  dsimp only at named
  split at named
  case isTrue =>
    cases symbolic : operatorSymbol? (context.tree.decl id).spelling with
    | none =>
        rw [symbolic] at named
        exact isNamed_of_nameless named
    | some symbol =>
        rw [symbolic] at named
        exact isNamed_of_conventional stems (.operator isMethod symbolic named)
  case isFalse => exact isNamed_of_getD _ stems named

section

variable {id : DeclId} {owner : String} (owns : context.Owns id owner)
include owns

theorem GivesMember.isNamed {child : DeclId} {member : Member}
    (inside : child ∈ context.tree.children id) (gives : context.GivesMember owner child member) :
    context.IsNamed (.member owner member) := by
  have whole := gives
  have stems (notEnum : (context.tree.decl child).kind ≠ .enumDecl) :
      context.StemsFrom (.member owner member) [child] :=
    .member owns inside whole notEnum
  cases gives with
  | constructor => exact isNamed_of_nameless rfl
  | method isMethod named has given =>
      have stems := stems (by rw [isMethod]; nofun)
      unfold methodMembers at given
      dsimp only at given
      rcases List.mem_cons.mp given with same | setter
      · refine isNamed_of_methodName? stems isMethod ?_
        rw [named, same]
        split <;> rfl
      · split at setter
        case isTrue =>
          obtain ⟨_, _, _, -, -, -, -, rfl⟩ := indexSetter?_eq_some (Option.mem_toList.mp setter)
          exact isNamed_of_nameless rfl
        case isFalse => cases setter
  | conversion isConversion converts has =>
      exact isNamed_of_conventional (stems (by rw [isConversion]; nofun))
        (.conversion isConversion converts)
  | field isField => exact isNamed_of_getD _ (stems (by rw [isField]; nofun)) rfl
  | constant isVariable => exact isNamed_of_getD _ (stems (by rw [isVariable]; nofun)) rfl
  | static isVariable => exact isNamed_of_getD _ (stems (by rw [isVariable]; nofun)) rfl
  | enumValue isEnum given =>
      obtain ⟨value, listed, rfl⟩ := List.mem_map.mp given
      exact isNamed_of_conventional (.memberValue owns inside isEnum listed) .memberValue

theorem IsMemberOf.isNamed {member : Member} (isMember : context.IsMemberOf id owner member) :
    context.IsNamed (.member owner member) := by
  rcases isMember with implicit | ⟨child, inside, gives, -⟩ | iterator
  · obtain ⟨rfl, -⟩ := of_mem_implicitConstructor implicit
    exact isNamed_of_nameless rfl
  · exact gives.isNamed owns inside
  · obtain ⟨_, _, _, _, _, start, stop, rfl, begins, ends⟩ :=
      exists_pair_of_mem_iterators iterator
    exact isNamed_of_conventional (.iterator owns begins ends)
      (.iterator (DeclTree.isMethod_of_boundMethod? begins))

end

/-! ## Fragments, builders and operators -/

theorem IsMade.isNamed {fragment : Fragment} (made : context.IsMade unit fragment) :
    ∀ item ∈ fragment.items, context.IsNamed item := by
  cases made with
  | module_ visited isNamespace =>
      exact List.forall_mem_singleton.mpr (isNamed_of_getD _ (.module_ isNamespace) rfl)
  | enclosing needed inside isNamespace =>
      exact List.forall_mem_singleton.mpr (isNamed_of_getD _ (.module_ isNamespace) rfl)
  | class_ visited entered record home inner given =>
      refine List.forall_mem_cons.mpr ⟨?_, List.forall_mem_append.mpr
        ⟨List.forall_mem_map.mpr fun found member => ?_,
          List.forall_mem_map.mpr fun found member => ?_⟩⟩
      · refine isNamed_of_className (.class_ record rfl) ?_
        dsimp only [Item.rubyName?]
      · obtain ⟨child, -, isRecord, -, rfl⟩ := inner found member
        refine isNamed_of_className (.opaque_ isRecord rfl) ?_
        dsimp only [Item.rubyName?]
      · exact (given found member).isNamed ⟨visited, .inl ⟨record, rfl⟩⟩
  | enum visited isEnum =>
      refine List.forall_mem_cons.mpr ⟨isNamed_of_className (.enum isEnum) rfl, ?_⟩
      refine List.forall_mem_map.mpr fun value member => ?_
      obtain ⟨child, listed, rfl⟩ := List.mem_map.mp member
      exact isNamed_of_conventional (.value isEnum (List.mem_of_mem_filter listed)) .value
  | enumValue visited isEnum member =>
      obtain ⟨child, listed, rfl⟩ := List.mem_map.mp member
      exact List.forall_mem_singleton.mpr (isNamed_of_conventional
        (.looseValue isEnum (List.mem_of_mem_filter listed)) .looseValue)
  | named visited isTypedef names =>
      exact List.forall_mem_singleton.mpr (isNamed_of_className (.named names) rfl)
  | @synthesized template _ args _ _ _ needed =>
      refine List.forall_mem_singleton.mpr fun _ => .inr (.synthesized needed fun new renamed => ?_)
      have named : context.options.namer.className (context.tree.decl template).spelling
          (context.tree.qualifiedName template) = new := by
        unfold Namer.className
        unfold renamed? at renamed
        rw [renamed, Option.getD_some]
      unfold synthesizedName
      rw [named]
  | @function id _ _ visited isFunction =>
      refine List.forall_mem_singleton.mpr (isNamed_of_getD (Name.method (context.methodShape id))
        (.function isFunction rfl) ?_)
      dsimp only [Item.rubyName?, Namer.methodName]
      rfl
  | constant visited isVariable =>
      exact List.forall_mem_singleton.mpr (isNamed_of_getD _ (.constant isVariable) rfl)
  | variable_ visited isVariable =>
      exact List.forall_mem_singleton.mpr (isNamed_of_getD _ (.variable_ isVariable) rfl)

theorem IsBuilderOf.isNamed {id : DeclId} {builder : Builder}
    (made : context.IsBuilderOf id builder) : ∀ item ∈ builder.items, context.IsNamed item := by
  obtain ⟨visited, isTemplate, -, -, -, typed, given⟩ := made
  refine List.forall_mem_cons.mpr ⟨isNamed_of_nameless rfl, ?_⟩
  refine List.forall_mem_map.mpr fun member listed => ?_
  rw [typed]
  exact (given member listed).isNamed ⟨visited, .inr ⟨isTemplate, rfl⟩⟩

theorem IsOperatorOf.isNamed {id : DeclId} {operator : FreeOperator}
    (made : context.IsOperatorOf id operator) :
    context.IsNamed (.operator operator.target operator.lambda) := by
  obtain ⟨-, isFunction, -, -, found⟩ := made
  exact isNamed_of_conventional (.operator isFunction found)
    (.freeOperator found (Speller.name_of_freeOperator? found))

end UnitContext

theorem BindOptions.renames_of_ofConfig {symbols : SymbolsConfig} {options : BindOptions}
    (reads : BindOptions.ofConfig symbols = .ok options) :
    RuleTable.renames symbols.rename = .ok options.namer.renames := by
  obtain ⟨-, table, -, renames, rfl⟩ := BindOptions.ofConfig_eq_ok reads
  exact renames

/-- The rules give a name to a declaration if and only if one of them is about its qualified name or
its own, and then it is a name that such a rule gives.  What is generated for a unit has this name
unless it is the value of an enum, an operator, a conversion or an iterator, which have conventional
names.  So all of it has the configured names if and only if those have. -/
theorem renames_take_precedence_iff {depth : Nat} {symbols : SymbolsConfig} {options : BindOptions}
    {index : ProjectIndex} {unit : SourceUnit} {relative : String} {result : UnitResult}
    (reads : BindOptions.ofConfig symbols = .ok options)
    (run : generateUnit depth options index unit relative = some result) :
    (∀ id,
      (((UnitContext.ofUnit depth unit options index relative).renamed? id).isSome ↔
        ∃ rule ∈ symbols.rename,
          ∃ candidate ∈ [unit.tree.qualifiedName id, (unit.tree.decl id).spelling],
            candidate ≠ "" ∧ ∃ new, rule.Gives candidate new) ∧
      ∀ new, (UnitContext.ofUnit depth unit options index relative).renamed? id = some new →
        ∃ rule ∈ symbols.rename,
          ∃ candidate ∈ [unit.tree.qualifiedName id, (unit.tree.decl id).spelling],
            candidate ≠ "" ∧ rule.Gives candidate new) ∧
    (∀ item ∈ result.bindings.items, item.rubyName?.isSome →
      (UnitContext.ofUnit depth unit options index relative).KeepsConvention item ∨
        (UnitContext.ofUnit depth unit options index relative).TakesRename item) ∧
    ((∀ item ∈ result.bindings.items, item.rubyName?.isSome →
        (UnitContext.ofUnit depth unit options index relative).TakesRename item) ↔
      ∀ item ∈ result.bindings.items, item.rubyName?.isSome →
        (UnitContext.ofUnit depth unit options index relative).KeepsConvention item →
        (UnitContext.ofUnit depth unit options index relative).TakesRename item) := by
  obtain ⟨progress, visitRun, made⟩ := bindings_of_generateUnit run
  have named := UnitContext.forall_items_of_visitUnit visitRun UnitContext.IsMade.isNamed
    UnitContext.IsBuilderOf.isNamed UnitContext.IsOperatorOf.isNamed
  rw [← made] at named
  have table := BindOptions.renames_of_ofConfig reads
  refine ⟨fun id => ⟨Namer.renamed_isSome_iff table, fun new renamed =>
    Namer.exists_gives_of_renamed table renamed⟩, named, ?_⟩
  refine ⟨fun takes item member given _ => takes item member given,
    fun takes item member given => ?_⟩
  exact (named item member given).elim (takes item member given) id

theorem ofConfig_of_renames {rules : List RenameRule} {table : RuleTable}
    (reads : RuleTable.renames rules = .ok table) :
    BindOptions.ofConfig ⟨[], rules, [], none⟩ =
      .ok { BindOptions.plain with namer := ⟨table⟩ } := by
  have skips : RuleTable.skips [] = .ok .empty := rfl
  rw [BindOptions.ofConfig, skips, reads]
  change Except.ok (BindOptions.mk (SymbolFilter.ofRules _) _ _ _) = _
  rw [SymbolFilter.ofRules_empty]
  rfl

/-- New names for a namespace, a class and a method. -/
def renamingRules : List RenameRule :=
  [⟨"geo", "Geometry"⟩, ⟨"geo::Mat", "Matrix"⟩, ⟨"create", "build"⟩]

def renamingOptions : BindOptions :=
  { BindOptions.plain with
    namer := ⟨⟨[("geo", .rename "Geometry"), ("geo::Mat", .rename "Matrix"),
      ("create", .rename "build")], []⟩⟩ }

theorem ofConfig_renamingRules :
    BindOptions.ofConfig ⟨[], renamingRules, [], none⟩ = .ok renamingOptions := by
  refine ofConfig_of_renames ?_
  decide +kernel

/-- A class with a method, in a namespace. -/
def renamingUnit : SourceUnit :=
  .ofSteps [.builtin "void", .add 0 .namespaceDecl "geo", .add 1 .classDecl "Mat",
    .function .method 2 "create" 0]

def renamingContext : UnitContext :=
  .ofUnit 0 renamingUnit renamingOptions .empty "unit.hpp"

def renamingItems : List Item :=
  let build : Member := .method ⟨"build", "&geo::Mat::create", none, [], false⟩
  [.fragment (.module_ "rb_mGeo" "Geometry" .global),
   .fragment (.class_ ⟨"rb_cGeoMat", "Matrix", "geo::Mat", none, .module_ "rb_mGeo", [],
     [.constructor [] [], build], []⟩),
   .member "geo::Mat" (.constructor [] []), .member "geo::Mat" build]

theorem renamed_declarations_take_their_names :
    ∃ result, generateUnit 0 renamingOptions .empty renamingUnit "unit.hpp" = some result ∧
      result.bindings.items = renamingItems ∧
      ∀ item ∈ result.bindings.items, item.rubyName?.isSome →
        renamingContext.KeepsConvention item ∨ renamingContext.TakesRename item := by
  have made : (generateUnit 0 renamingOptions .empty renamingUnit "unit.hpp").map
      (·.bindings.items) = some renamingItems := by
    decide +kernel
  obtain ⟨result, run, items⟩ := Option.map_eq_some_iff.mp made
  exact ⟨result, run, items, (renames_take_precedence_iff ofConfig_renamingRules run).2.1⟩

/-- A new name for the value of an enum. -/
def scarletOptions : BindOptions :=
  { BindOptions.plain with namer := ⟨⟨[("Color::Red", .rename "SCARLET")], []⟩⟩ }

theorem ofConfig_scarlet :
    BindOptions.ofConfig ⟨[], [⟨"Color::Red", "SCARLET"⟩], [], none⟩ = .ok scarletOptions := by
  refine ofConfig_of_renames ?_
  decide +kernel

/-- An enum with a value. -/
def colorUnit : SourceUnit :=
  .ofSteps [.scopedEnumeration 0 "Color", .enumConstant 1 "Red"]

def colorContext : UnitContext :=
  .ofUnit 0 colorUnit scarletOptions .empty "unit.hpp"

theorem colorContext_renamed? {id value : DeclId} (child : value ∈ colorContext.tree.children id)
    (isEnum : (colorContext.tree.decl id).kind = .enumDecl) :
    colorContext.renamed? value = some "SCARLET" := by
  have inside : id < 3 := by
    by_contra outside
    have outside : colorContext.tree.size ≤ id := by
      refine le_trans ?_ (Nat.le_of_not_lt outside)
      decide +kernel
    rw [DeclTree.decl_of_size_le outside] at isEnum
    cases isEnum
  have each : ∀ id < 3, ∀ value ∈ colorContext.tree.children id,
      (colorContext.tree.decl id).kind = .enumDecl →
      colorContext.renamed? value = some "SCARLET" := by
    decide +kernel
  exact each id inside value child isEnum

/-- The value keeps its conventional name although a rule gives it another. -/
theorem renamed_enum_value_keeps_its_name :
    BindOptions.ofConfig ⟨[], [⟨"Color::Red", "SCARLET"⟩], [], none⟩ = .ok scarletOptions ∧
      ∃ result, generateUnit 0 scarletOptions .empty colorUnit "unit.hpp" = some result ∧
      ∃ item ∈ result.bindings.items, item = .value "Color" ("Red", "Color::Red") ∧
        ¬ colorContext.TakesRename item := by
  have made : (generateUnit 0 scarletOptions .empty colorUnit "unit.hpp").map
      (fun result => decide (.value "Color" ("Red", "Color::Red") ∈ result.bindings.items)) =
        some true := by
    decide +kernel
  obtain ⟨result, run, decided⟩ := Option.map_eq_some_iff.mp made
  refine ⟨ofConfig_scarlet, result, run, _, of_decide_eq_true decided, rfl, ?_⟩
  generalize shape : Item.value "Color" ("Red", "Color::Red") = item
  rintro (⟨stems, takes⟩ | -)
  · cases stems with
    | value isEnum child =>
        have named := takes _ (colorContext_renamed? child isEnum)
        rw [← shape] at named
        exact absurd (Option.some.inj named) (by decide)
    | _ => cases shape
  · cases shape

end Bindery
