import Bindery.Proofs.Attempts
import Bindery.Proofs.Binding.Entries
import Bindery.Proofs.Binding.Skipping
import Bindery.Proofs.Rules.Skips
import Bindery.Proofs.Spelling.Parts
import Bindery.Proofs.Text.WholeWord

/-!
# Skipped types in signatures

A type that mentions a skipped symbol keeps what it is written in out of the bindings: the
constructors, methods, functions and conversions that take or give it, the instantiations that it
is an argument of, and the base classes that it is.  Free operators come in without that look at
their types, and so do the types of a setter that are not written in its method.
-/

set_option autoImplicit false
set_option maxRecDepth 100000

namespace Bindery

/-- Whether a symbol that is skipped by name, or the simple name of one, stands in a spelling as a
whole word. -/
def SymbolsConfig.Mentions (symbols : SymbolsConfig) (spelling : String) : Prop :=
  ∃ entry ∈ symbols.skip, ∃ name, SymbolPattern.parse entry = .ok (.exact name) ∧
    (Text.containsWord spelling name = true ∨
      Text.containsWord spelling (Text.simpleName name) = true)

theorem BindOptions.ofConfig_eq_ok {symbols : SymbolsConfig} {options : BindOptions}
    (reads : BindOptions.ofConfig symbols = .ok options) :
    ∃ skips renames, RuleTable.skips symbols.skip = .ok skips ∧
      RuleTable.renames symbols.rename = .ok renames ∧
      options = ⟨SymbolFilter.ofRules skips, ⟨renames⟩, symbols.exportMacros,
        symbols.headerInclude⟩ := by
  obtain ⟨skips, readSkips, reads⟩ := except_bind_eq_ok.mp reads
  obtain ⟨renames, readRenames, reads⟩ := except_bind_eq_ok.mp reads
  cases reads
  exact ⟨skips, renames, readSkips, readRenames, rfl⟩

theorem SymbolsConfig.mentionedIn_eq_none_iff {symbols : SymbolsConfig} {options : BindOptions}
    (reads : BindOptions.ofConfig symbols = .ok options) {spelling : String} :
    options.skip.mentionedIn spelling = none ↔ ¬ symbols.Mentions spelling := by
  obtain ⟨rules, table, skips, -, rfl⟩ := BindOptions.ofConfig_eq_ok reads
  rw [← Option.not_isSome_iff_eq_none]
  exact not_congr (SymbolFilter.mentionedIn_isSome_iff_of_skips skips)

/-- The types in the signature of a lambda. -/
def Lambda.types (lambda : Lambda) : List String :=
  lambda.params.map (·.1) ++ [lambda.returnType]

/-- Whether no signature belongs to an item, and no type that it binds or derives from. -/
def Item.IsUntyped : Item → Prop
  | .member _ (.constructor _ _) | .member _ (.method _) | .member _ (.singletonFunction _)
  | .member _ (.lambda _) | .operator _ _ => False
  | .fragment (.class_ _) | .fragment (.instantiation _ _ _ _ _ _)
  | .fragment (.function _ _) => False
  | _ => True

/-- The type that an instantiation binds, and the base of a class or instantiation. -/
def Fragment.writtenTypes : Fragment → List String
  | class_ binding => binding.base.toList
  | instantiation _ _ cppType base _ _ => cppType :: base.toList
  | _ => []

namespace UnitContext

/-- The arguments of a function. -/
def arguments (context : UnitContext) (function : DeclId) : List Argument :=
  (context.tree.parameters function).zipIdx.filterMap fun (param, place) =>
    (context.tree.decl param).type.map (context.argument place param)

/-- The spelled types of the parameters and of the result of a function. -/
def functionTypes (context : UnitContext) (function : DeclId) : List String :=
  context.speller.parameterTypes function
    ++ (context.tree.decl function).resultType.toList.map context.speller.spell

/-- The types in the signature of an item, or the type that it binds and its base.  A callable has
those of a function that it names, among overloads by its signature. -/
inductive HasTypes (context : UnitContext) : Item → List String → Prop
  | constructor {owner : String} {types : List String} {args : List Argument} :
      HasTypes context (.member owner (.constructor types args)) types
  | method {id child : DeclId} {owner : String} {callable : Callable} {member : Member}
      (owns : context.Owns id owner) (inside : child ∈ context.tree.children id)
      (accepted : context.accepts child = true)
      (isMethod : (context.tree.decl child).kind = .method)
      (named : callable.cppName = "&" ++ owner ++ "::" ++ (context.tree.decl child).spelling)
      (told : callable.signature = context.explicitSignature? child owner)
      (takes : callable.args = context.arguments child)
      (bound : member = .method callable ∨ member = .singletonFunction callable) :
      HasTypes context (.member owner member) (context.functionTypes child)
  | conversion {id child : DeclId} {owner : String} {callable : Callable} {result : TypeId}
      (owns : context.Owns id owner) (inside : child ∈ context.tree.children id)
      (accepted : context.accepts child = true)
      (isConversion : (context.tree.decl child).kind = .conversion)
      (converts : (context.tree.decl child).resultType = some result)
      (named : callable.cppName =
        "&" ++ owner ++ "::operator " ++ context.speller.spell result)
      (takes : callable.args = context.arguments child) :
      HasTypes context (.member owner (.method callable)) (context.functionTypes child)
  | setter {owner : String} {lambda : Lambda} :
      HasTypes context (.member owner (.lambda lambda)) lambda.types
  | function {id : DeclId} {parent : Parent} {callable : Callable}
      (visited : context.IsVisited id)
      (isFunction : (context.tree.decl id).kind = .functionDecl)
      (named : callable.cppName = "&" ++ context.tree.qualifiedName id)
      (told : callable.signature =
        if context.overloaded id then some (context.speller.functionSignature id) else none)
      (takes : callable.args = context.arguments id) :
      HasTypes context (.fragment (.function parent callable)) (context.functionTypes id)
  | operator {cppType : String} {lambda : Lambda} :
      HasTypes context (.operator cppType lambda) lambda.types
  | class_ {binding : ClassBinding} :
      HasTypes context (.fragment (.class_ binding)) binding.base.toList
  | instantiation {identifier name cppType : String} {base : Option String} {parent : Parent}
      {builder : Option BuilderCall} :
      HasTypes context (.fragment (.instantiation identifier name cppType base parent builder))
        (cppType :: base.toList)
  | other {item : Item} (untyped : item.IsUntyped) : HasTypes context item []

/-- The types that come in without a look for skipped symbols: those of free operators, and in a
setter its class and that it gives nothing. -/
inductive IsUncheckedType (context : UnitContext) : Item → String → Prop
  | operator {cppType type : String} {lambda : Lambda} (typed : type ∈ lambda.types) :
      IsUncheckedType context (.operator cppType lambda) type
  | setter {owner type : String} {lambda : Lambda} (typed : type ∈ lambda.types)
      (unwritten : type = owner ++ "&" ∨ type = "void") :
      IsUncheckedType context (.member owner (.lambda lambda)) type
  /-- The value of a setter is checked in the result of its method, which is as good unless a type
  is a part of itself. -/
  | endless {owner type : String} {lambda : Lambda} (typed : type ∈ lambda.types)
      (endless : ¬ context.tree.HasFiniteTypes) :
      IsUncheckedType context (.member owner (.lambda lambda)) type

/-- Whether all types of an item that have been checked are clean. -/
def IsCleared (context : UnitContext) (item : Item) : Prop :=
  ∃ types, context.HasTypes item types ∧
    ∀ type ∈ types, context.IsClean type ∨ context.IsUncheckedType item type

variable {context : UnitContext} {unit : UnitState}

theorem IsCleared.of_clean {item : Item} {types : List String} (has : context.HasTypes item types)
    (clean : ∀ type ∈ types, context.IsClean type) : context.IsCleared item :=
  ⟨types, has, fun type member => .inl (clean type member)⟩

theorem IsCleared.of_untyped {item : Item} (untyped : item.IsUntyped) : context.IsCleared item :=
  .of_clean (.other untyped) nofun

/-! ## Signatures -/

theorem map_readParameter {params : List (DeclId × Nat)} {read : List (TypeId × Argument)}
    (reads : params.mapM (fun (param, place) => context.readParameter param place) = .ok read) :
    read.map (fun entry => context.speller.spell entry.1) =
        params.map (fun entry =>
          ((context.tree.decl entry.1).type.map context.speller.spell).getD "void") ∧
      read.map (·.2) = params.filterMap fun (param, place) =>
        (context.tree.decl param).type.map (context.argument place param) := by
  induction params generalizing read with
  | nil =>
      cases reads
      exact ⟨rfl, rfl⟩
  | cons entry rest ih =>
      obtain ⟨param, place⟩ := entry
      obtain ⟨found, behind, first, others, rfl⟩ := mapM_cons_eq_ok.mp reads
      obtain ⟨types, args⟩ := ih others
      dsimp only at first
      unfold readParameter at first
      split at first
      case h_1 => cases first
      case h_2 type typed =>
        split at first
        case isTrue => cases first
        case isFalse =>
          cases first
          simp [types, args, typed]

theorem readSignature_eq_ok {function : DeclId} {signature : Signature}
    (reads : context.readSignature function = .ok signature) :
    signature.types = context.speller.parameterTypes function ∧
      signature.args = context.arguments function := by
  unfold readSignature at reads
  dsimp only at reads
  split at reads
  case isTrue => cases reads
  case isFalse =>
    cases params : (context.tree.parameters function).zipIdx.mapM fun (param, place) =>
        context.readParameter param place with
    | error refusal =>
        rw [params] at reads
        cases reads
    | ok read =>
        rw [params] at reads
        cases reads
        obtain ⟨types, args⟩ := map_readParameter params
        refine ⟨?_, args⟩
        rw [List.map_map]
        calc
          _ = _ := types
          _ = ((context.tree.parameters function).zipIdx.map (·.1)).map fun param =>
                ((context.tree.decl param).type.map context.speller.spell).getD "void" := by
              rw [List.map_map]
              rfl
          _ = context.speller.parameterTypes function := by
              rw [List.zipIdx_map_fst]
              rfl

theorem HasSignature.isClean {function : DeclId} {signature : Signature}
    (has : context.HasSignature function signature) :
    ∀ type ∈ context.functionTypes function, context.IsClean type := by
  obtain ⟨reads, unmentioned⟩ := has
  rw [(readSignature_eq_ok reads).1] at unmentioned
  intro type member
  have nothing := List.findSome?_eq_none_iff.mp unmentioned type member
  exact Option.map_eq_none_iff.mp nothing

theorem IsClean.of_append {spelling rest : String}
    (apart : Chars.isBoundary rest.toList.head? = true)
    (clean : context.IsClean (spelling ++ rest)) : context.IsClean spelling := by
  refine List.find?_eq_none.mpr fun word member contains => ?_
  exact List.find?_eq_none.mp clean word member (Text.containsWord_append apart contains)

/-! ## Members -/

theorem indexSetter?_eq_some {function : DeclId} {owner : String} {params : List String}
    {setter : Member} (given : context.indexSetter? function owner params = some setter) :
    ∃ result element index, (context.tree.decl function).resultType = some result ∧
      (context.tree.type result).kind = .lvalueRef ∧
      (context.tree.type result).pointee = some element ∧ index ∈ params ∧
      setter = .lambda ⟨"[]=", [(owner ++ "&", "self"), (index, "index"),
        (context.speller.spell element, "value")], "void", "self[index] = value;"⟩ := by
  unfold indexSetter? at given
  dsimp only at given
  obtain ⟨result, gives, given⟩ := Option.bind_eq_some_iff.mp given
  split at given
  case isTrue => cases given
  case isFalse changes =>
    obtain ⟨element, around, given⟩ := Option.bind_eq_some_iff.mp given
    split at given
    case isTrue => cases given
    case isFalse =>
      obtain ⟨index, first, given⟩ := Option.bind_eq_some_iff.mp given
      cases given
      have kind : (context.tree.type result).kind = .lvalueRef := by
        simp only [Bool.or_eq_true, not_or] at changes
        simpa using changes.1
      exact ⟨result, element, index, gives, kind, around, List.mem_of_head? first, rfl⟩

/-- The index and the value of a setter are checked with the method that it stands beside. -/
theorem HasSignature.isCleared_setter {function : DeclId} {signature : Signature}
    (has : context.HasSignature function signature) {owner : String} {setter : Member}
    (given : context.indexSetter? function owner signature.types = some setter) :
    context.IsCleared (.member owner setter) := by
  have clean := has.isClean
  obtain ⟨result, element, index, gives, kind, around, isParam, rfl⟩ := indexSetter?_eq_some given
  refine ⟨_, .setter, ?_⟩
  rw [(readSignature_eq_ok has.1).1] at isParam
  have typed (type : String) (member : type ∈ [owner ++ "&", index, context.speller.spell element,
      "void"]) : type ∈ Lambda.types ⟨"[]=", [(owner ++ "&", "self"), (index, "index"),
        (context.speller.spell element, "value")], "void", "self[index] = value;"⟩ :=
    member
  refine List.forall_mem_cons.mpr ⟨.inr (.setter (typed _ (by simp)) (.inl rfl)), ?_⟩
  refine List.forall_mem_cons.mpr ⟨.inl (clean _ (List.mem_append_left _ isParam)), ?_⟩
  refine List.forall_mem_cons.mpr ⟨?_, List.forall_mem_singleton.mpr
    (.inr (.setter (typed _ (by simp)) (.inr rfl)))⟩
  by_cases finite : context.tree.HasFiniteTypes
  · have resultClean : context.IsClean (context.speller.spell result) := by
      refine clean _ (List.mem_append_right _ ?_)
      rw [gives]
      exact List.mem_singleton_self _
    rw [Speller.spell_eq_of_lvalueRef finite kind around] at resultClean
    exact .inl (resultClean.of_append (by decide))
  · exact .inr (.endless (typed _ (by simp)) finite)

theorem IsMemberOf.isCleared {id : DeclId} {owner : String} (owns : context.Owns id owner)
    {member : Member} (isMember : context.IsMemberOf id owner member) :
    context.IsCleared (.member owner member) := by
  rcases isMember with implicit | ⟨child, inside, gives, accepted, -⟩ | iterator
  · obtain ⟨rfl, -⟩ := of_mem_implicitConstructor implicit
    exact .of_clean .constructor nofun
  · cases gives with
    | constructor isConstructor has =>
        refine .of_clean .constructor fun type member => has.isClean type ?_
        exact List.mem_append_left _ ((readSignature_eq_ok has.1).1 ▸ member)
    | method isMethod named has given =>
        have takes := (readSignature_eq_ok has.1).2
        unfold methodMembers at given
        dsimp only at given
        rcases List.mem_cons.mp given with rfl | setter
        · by_cases isStatic : (context.tree.decl child).has .isStatic = true
          · rw [if_pos isStatic]
            exact .of_clean (.method owns inside accepted isMethod rfl rfl takes (.inr rfl))
              has.isClean
          · rw [if_neg isStatic]
            exact .of_clean (.method owns inside accepted isMethod rfl rfl takes (.inl rfl))
              has.isClean
        · split at setter
          case isTrue => exact has.isCleared_setter (Option.mem_toList.mp setter)
          case isFalse => cases setter
    | conversion isConversion converts has =>
        have takes := (readSignature_eq_ok has.1).2
        exact .of_clean (.conversion owns inside accepted isConversion converts rfl takes)
          has.isClean
    | field => exact .of_untyped trivial
    | constant => exact .of_untyped trivial
    | static => exact .of_untyped trivial
    | enumValue isEnum given =>
        obtain ⟨value, -, rfl⟩ := List.mem_map.mp given
        exact .of_untyped trivial
  · obtain ⟨_, _, _, _, _, _, _, rfl, -, -⟩ := exists_pair_of_mem_iterators iterator
    exact .of_untyped trivial

/-! ## Fragments, builders and operators -/

theorem IsWritten.isClean {templates includes : List String} {line : Line}
    (written : context.IsWritten templates includes line) :
    ∀ type ∈ line.fragment.writtenTypes, context.IsClean type := by
  cases written with
  | instantiation spells calls clean cleanBase =>
      refine List.forall_mem_cons.mpr ⟨clean, fun type member => ?_⟩
      exact cleanBase type (Option.mem_toList.mp member)
  | class_ cleanBase => exact fun type member => cleanBase type (Option.mem_toList.mp member)
  | @other fragment other =>
      cases fragment with
      | class_ => exact absurd trivial other
      | instantiation => exact absurd trivial other
      | _ => exact nofun

theorem IsMade.isCleared {fragment : Fragment} (made : context.IsMade unit fragment)
    (clean : ∀ type ∈ fragment.writtenTypes, context.IsClean type) :
    ∀ item ∈ fragment.items, context.IsCleared item := by
  cases made with
  | class_ visited entered record home inner given =>
      refine List.forall_mem_cons.mpr ⟨.of_clean .class_ clean, ?_⟩
      refine List.forall_mem_append.mpr ⟨List.forall_mem_map.mpr fun found _ => .of_untyped trivial,
        List.forall_mem_map.mpr fun member listed => ?_⟩
      exact (given member listed).isCleared ⟨visited, .inl ⟨record, rfl⟩⟩
  | enum =>
      exact List.forall_mem_cons.mpr ⟨.of_untyped trivial,
        List.forall_mem_map.mpr fun _ _ => .of_untyped trivial⟩
  | named => exact List.forall_mem_singleton.mpr (.of_clean .instantiation clean)
  | synthesized => exact List.forall_mem_singleton.mpr (.of_clean .instantiation clean)
  | function visited isFunction kept exported has =>
      have takes := (readSignature_eq_ok has.1).2
      exact List.forall_mem_singleton.mpr
        (.of_clean (.function visited isFunction rfl rfl takes) has.isClean)
  | module_ | enclosing | enumValue | constant | variable_ =>
      exact List.forall_mem_singleton.mpr (.of_untyped trivial)

theorem IsBuilderOf.isCleared {id : DeclId} {builder : Builder}
    (made : context.IsBuilderOf id builder) : ∀ item ∈ builder.items, context.IsCleared item := by
  obtain ⟨visited, isTemplate, -, -, -, typed, given⟩ := made
  refine List.forall_mem_cons.mpr ⟨.of_untyped trivial, ?_⟩
  refine List.forall_mem_map.mpr fun member listed => ?_
  rw [typed]
  exact (given member listed).isCleared ⟨visited, .inr ⟨isTemplate, rfl⟩⟩

theorem isCleared_operator (cppType : String) (lambda : Lambda) :
    context.IsCleared (.operator cppType lambda) :=
  ⟨_, .operator, fun _ member => .inr (.operator member)⟩

theorem isCleared_of_visitUnit {fragments : List Fragment} {progress : Progress}
    (run : context.visitUnit.run ⟨UnitState.empty, []⟩ = some (fragments, progress)) :
    ∀ item ∈ (context.bindings fragments progress.unit).items, context.IsCleared item := by
  obtain ⟨accountable, made⟩ := visitUnit_made run
  obtain ⟨entries, journal, -⟩ := journal_of_visitUnit run
  have told : fragments = entries.flatMap (·.fragments) := journal.fragments
  refine List.forall_mem_append.mpr ⟨List.forall_mem_append.mpr ⟨?_, ?_⟩, ?_⟩
  · refine List.forall_mem_flatMap.mpr fun fragment member => (made fragment member).isCleared ?_
    rw [told] at member
    obtain ⟨entry, present, member⟩ := List.mem_flatMap.mp member
    obtain ⟨line, inLines, rfl⟩ := List.mem_map.mp member
    obtain ⟨before, behind, parts⟩ := List.append_of_mem present
    exact (journal.kept.written before entry behind parts line inLines).isClean
  · refine List.forall_mem_flatMap.mpr fun builder member => ?_
    obtain ⟨id, isBuilder⟩ := accountable.builders builder member
    exact isBuilder.isCleared
  · refine List.forall_mem_flatMap.mpr fun group _ => ?_
    exact List.forall_mem_map.mpr fun lambda _ => isCleared_operator group.cppType lambda

/-- An item that has an unchecked type has no other types but those of its lambda. -/
theorem IsUncheckedType.mem_of_hasTypes {item : Item} {type : String} {types : List String}
    (unchecked : context.IsUncheckedType item type) (has : context.HasTypes item types) :
    type ∈ types := by
  cases unchecked with
  | operator typed =>
      cases has with
      | operator => exact typed
      | other untyped => exact absurd untyped id
  | setter typed | endless typed =>
      cases has with
      | setter => exact typed
      | method owns inside accepted isMethod named told takes bound =>
          rcases bound with same | same <;> cases same
      | other untyped => exact absurd untyped id

end UnitContext

/-- The types that mention a skipped symbol are kept out of the signatures, instantiations and bases
of a unit, all but those that come in unchecked.  So they are kept out altogether if and only if
none of those mentions one. -/
theorem skips_propagate_through_signatures_iff {symbols : SymbolsConfig} {options : BindOptions}
    (reads : BindOptions.ofConfig symbols = .ok options) {depth : Nat} {index : ProjectIndex}
    {unit : SourceUnit} {relative : String} {result : UnitResult}
    (run : generateUnit depth options index unit relative = some result) :
    (∀ item ∈ result.bindings.items, ∃ types,
        (UnitContext.ofUnit depth unit options index relative).HasTypes item types ∧
          ∀ type ∈ types, symbols.Mentions type →
            (UnitContext.ofUnit depth unit options index relative).IsUncheckedType item type) ∧
      ((∀ item ∈ result.bindings.items, ∃ types,
          (UnitContext.ofUnit depth unit options index relative).HasTypes item types ∧
            ∀ type ∈ types, ¬ symbols.Mentions type) ↔
        ∀ item ∈ result.bindings.items, ∀ type,
          (UnitContext.ofUnit depth unit options index relative).IsUncheckedType item type →
            ¬ symbols.Mentions type) := by
  obtain ⟨progress, visitRun, made⟩ := bindings_of_generateUnit run
  have cleared := UnitContext.isCleared_of_visitUnit visitRun
  rw [← made] at cleared
  have unmentioned {type : String}
      (clean : (UnitContext.ofUnit depth unit options index relative).IsClean type) :
      ¬ symbols.Mentions type :=
    (SymbolsConfig.mentionedIn_eq_none_iff reads).mp clean
  refine ⟨fun item member => ?_, fun clean item member type unchecked => ?_,
    fun unchecked item member => ?_⟩
  · obtain ⟨types, has, each⟩ := cleared item member
    refine ⟨types, has, fun type typed mentions => ?_⟩
    exact (each type typed).resolve_left fun clean => unmentioned clean mentions
  · obtain ⟨types, has, each⟩ := clean item member
    exact each type (unchecked.mem_of_hasTypes has)
  · obtain ⟨types, has, each⟩ := cleared item member
    refine ⟨types, has, fun type typed => ?_⟩
    exact (each type typed).elim unmentioned (unchecked item member type)

/-- The configuration that skips the symbols of one name. -/
def skippingConfig (name : String) : SymbolsConfig :=
  ⟨[name], [], [], none⟩

def skippingName (name : String) : BindOptions :=
  { BindOptions.plain with skip := ⟨⟨[(name, .skip)], []⟩, [name]⟩ }

theorem ofConfig_skippingConfig {name : String}
    (parsed : SymbolPattern.parse name = .ok (.exact name))
    (simple : SymbolFilter.wordsOf name = [name]) :
    BindOptions.ofConfig (skippingConfig name) = .ok (skippingName name) := by
  have skips : RuleTable.skips [name] = .ok ⟨[(name, .skip)], []⟩ := by
    rw [RuleTable.skips, List.foldlM_cons, parsed]
    rfl
  rw [BindOptions.ofConfig, skippingConfig, skips, skippingName,
    ← SymbolFilter.ofRules_of_simple simple]
  rfl

/-- A class with an index operator and a method that takes a value of another class. -/
def indexedUnit : SourceUnit :=
  .ofSteps
    [.add 0 .classDecl "B", .add 0 .classDecl "A", .builtin "void", .builtin "int", .named 1,
     .derived .lvalueRef 1, .function .method 2 "operator[]" 4, .param 3 "index" 1,
     .function .method 2 "take" 0, .param 5 "other" 3]

def indexedItems : List Item :=
  let index : Member := .method ⟨"[]", "&A::operator[]", none, [⟨"index", none⟩], false⟩
  let setter : Member := .lambda
    ⟨"[]=", [("A&", "self"), ("int", "index"), ("int", "value")], "void", "self[index] = value;"⟩
  let constructor : Member := .constructor [] []
  let members := [constructor, index, setter]
  .fragment (.class_ ⟨"rb_cA", "A", "A", none, .global, [], members, []⟩)
    :: members.map (.member "A")

/-- The method goes with its parameter, and the setter of the index operator is in order. -/
theorem index_setter_is_clean :
    BindOptions.ofConfig (skippingConfig "B") = .ok (skippingName "B") ∧
      ∃ result, generateUnit 0 (skippingName "B") .empty indexedUnit "unit.hpp" = some result ∧
        result.bindings.items = indexedItems ∧
        ∀ item ∈ result.bindings.items, ∃ types,
          (UnitContext.ofUnit 0 indexedUnit (skippingName "B") .empty "unit.hpp").HasTypes item
            types ∧ ∀ type ∈ types, ¬ (skippingConfig "B").Mentions type := by
  have reads : BindOptions.ofConfig (skippingConfig "B") = .ok (skippingName "B") :=
    ofConfig_skippingConfig (by decide +kernel) (by decide +kernel)
  have made : (generateUnit 0 (skippingName "B") .empty indexedUnit "unit.hpp").map
      (·.bindings.items) = some indexedItems := by
    decide +kernel
  obtain ⟨result, run, items⟩ := Option.map_eq_some_iff.mp made
  refine ⟨reads, result, run, items,
    (skips_propagate_through_signatures_iff reads run).2.mpr ?_⟩
  rw [items]
  have clean : ∀ type ∈ ["A&", "int", "int", "void"],
      (skippingName "B").skip.mentionedIn type = none := by
    decide +kernel
  intro item member type unchecked
  simp only [indexedItems, List.map_cons, List.map_nil, List.mem_cons, List.not_mem_nil,
    or_false] at member
  rcases member with rfl | rfl | rfl | rfl
  · nomatch unchecked
  · nomatch unchecked
  · nomatch unchecked
  · exact (SymbolsConfig.mentionedIn_eq_none_iff reads).mp
      (clean type (unchecked.mem_of_hasTypes .setter))

/-- A free operator of one class that takes a value of another. -/
def comparingUnit : SourceUnit :=
  .ofSteps
    [.add 0 .classDecl "A", .add 0 .classDecl "B", .builtin "bool", .named 1, .named 2,
     .function .functionDecl 0 "operator==" 0, .param 3 "left" 2, .param 3 "right" 4]

/-- The operator is bound although a rule skips the class of its second operand. -/
theorem skipped_operand_is_bound :
    BindOptions.ofConfig (skippingConfig "B") = .ok (skippingName "B") ∧
      ∃ result, generateUnit 0 (skippingName "B") .empty comparingUnit "unit.hpp" = some result ∧
        ∃ item ∈ result.bindings.items, ∀ types,
          (UnitContext.ofUnit 0 comparingUnit (skippingName "B") .empty "unit.hpp").HasTypes item
            types → ∃ type ∈ types, (skippingConfig "B").Mentions type := by
  let lambda : Lambda :=
    ⟨"==", [("A", "self"), ("B", "other")], "bool", "return self == other;"⟩
  have made : (generateUnit 0 (skippingName "B") .empty comparingUnit "unit.hpp").map
      (fun result => decide (.operator "A" lambda ∈ result.bindings.items)) = some true := by
    decide +kernel
  obtain ⟨result, run, decided⟩ := Option.map_eq_some_iff.mp made
  have parsed : SymbolPattern.parse "B" = .ok (.exact "B") := by
    decide +kernel
  refine ⟨ofConfig_skippingConfig parsed (by decide +kernel), result, run, .operator "A" lambda,
    of_decide_eq_true decided, fun types has => ?_⟩
  cases has with
  | operator =>
      exact ⟨"B", by decide, "B", List.mem_singleton_self _, "B", parsed, .inl (by decide +kernel)⟩
  | other untyped => exact absurd untyped id

end Bindery
