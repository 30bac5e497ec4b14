import Bindery.Proofs.Binding.Skipping
import Bindery.Proofs.Text.WholeWord

/-!
# Export macros

If there are export macros, a class, a class template, a function or a free operator outside classes
is bound only if its text shows one of them.  Enums and variables come in without that look at their
text, and so does an opaque class that does not belong to the class in which it is found.
-/

set_option autoImplicit false
set_option maxRecDepth 100000

namespace Bindery

/-- Whether an item binds a class, a class template, an enum, a function or a variable. -/
def Item.presents : Item → Bool
  | fragment (.module_ _ _ _) => false
  | fragment (.instantiation _ _ _ _ _ _) => false
  | fragment _ => true
  | opaque_ _ => true
  | builder _ => true
  | operator _ _ => true
  | value _ _ => false
  | member _ _ => false

namespace UnitContext

/-- Whether the text of a declaration shows an export macro. -/
def IsShown (context : UnitContext) (id : DeclId) : Prop :=
  ∃ name ∈ context.options.exportMacros, Text.HasWord (context.tree.decl id).extent name

/-- Which class, class template, enum, function or variable an item binds. -/
inductive Presents (context : UnitContext) : Item → DeclId → Prop
  | class_ {id : DeclId} {binding : ClassBinding} (visited : context.IsVisited id)
      (record : (context.tree.decl id).kind.isRecord)
      (typed : binding.cppType = context.tree.qualifiedName id) :
      Presents context (.fragment (.class_ binding)) id
  | opaque_ {outer id : DeclId} {inner : OpaqueClass} (visited : context.IsVisited outer)
      (isClass : (context.tree.decl outer).kind.isRecord)
      (child : id ∈ context.tree.children outer) (record : (context.tree.decl id).kind.isRecord)
      (typed : inner.cppType = context.tree.qualifiedName id) :
      Presents context (.opaque_ inner) id
  | builder {id : DeclId} {builder : Builder} (visited : context.IsVisited id)
      (isTemplate : (context.tree.decl id).kind = .classTemplate)
      (typed : builder.cppType = context.tree.qualifiedDisplayName id) :
      Presents context (.builder builder) id
  | enum {id : DeclId} {identifier name : String} {parent : Parent}
      {values : List (String × String)} (visited : context.IsVisited id)
      (isEnum : (context.tree.decl id).kind = .enumDecl) :
      Presents context
        (.fragment (.enum identifier name (context.tree.qualifiedName id) parent values)) id
  /-- An enum without a name is bound value by value. -/
  | looseValue {id value : DeclId} {parent : Parent} (visited : context.IsVisited id)
      (isEnum : (context.tree.decl id).kind = .enumDecl)
      (child : value ∈ context.tree.children id) :
      Presents context (.fragment (context.looseValue id value parent)) id
  | function {id : DeclId} {parent : Parent} {callable : Callable}
      (visited : context.IsVisited id) (isFunction : (context.tree.decl id).kind = .functionDecl)
      (named : callable.cppName = "&" ++ context.tree.qualifiedName id) :
      Presents context (.fragment (.function parent callable)) id
  | operator {id : DeclId} {operator : FreeOperator} (visited : context.IsVisited id)
      (isFunction : (context.tree.decl id).kind = .functionDecl)
      (found : context.speller.freeOperator? id = some operator) :
      Presents context (.operator operator.target operator.lambda) id
  | constant {id : DeclId} {parent : Parent} {name : String} (visited : context.IsVisited id)
      (isVariable : (context.tree.decl id).kind = .varDecl) :
      Presents context (.fragment (.constant parent name (context.tree.qualifiedName id))) id
  | variable_ {id : DeclId} {parent : Parent} {name : String} {readOnly : Bool}
      (visited : context.IsVisited id) (isVariable : (context.tree.decl id).kind = .varDecl) :
      Presents context
        (.fragment (.variable_ parent name ("&" ++ context.tree.qualifiedName id) readOnly)) id

/-- Whether an item binds a declaration that belongs to a class or shows an export macro. -/
def IsCovered (context : UnitContext) (item : Item) : Prop :=
  ∃ id, context.Presents item id ∧ (isMember context.tree id = true ∨ context.IsShown id)

/-- The items that come about without a look at the text of their declaration. -/
inductive IsUntested (context : UnitContext) : Item → Prop
  | enum {identifier name cppType : String} {parent : Parent} {values : List (String × String)} :
      IsUntested context (.fragment (.enum identifier name cppType parent values))
  /-- A constant is a variable or a value of an enum without a name. -/
  | constant {parent : Parent} {name value : String} :
      IsUntested context (.fragment (.constant parent name value))
  | variable_ {parent : Parent} {name cppName : String} {readOnly : Bool} :
      IsUntested context (.fragment (.variable_ parent name cppName readOnly))
  | opaque_ {outer id : DeclId} {inner : OpaqueClass} (child : id ∈ context.tree.children outer)
      (typed : inner.cppType = context.tree.qualifiedName id)
      (elsewhere : context.tree.semanticParent id ≠ some outer) :
      IsUntested context (.opaque_ inner)

theorem IsUntested.presents {context : UnitContext} {item : Item}
    (untested : context.IsUntested item) : item.presents = true := by
  cases untested <;> rfl

/-- Whether an item binds a declaration, and one that is covered if its text has been looked at. -/
def IsScreened (context : UnitContext) (item : Item) : Prop :=
  (∃ id, context.Presents item id) ∧ (context.IsUntested item ∨ context.IsCovered item)

section

variable {context : UnitContext} {unit : UnitState} (required : context.options.exportMacros ≠ [])
include required

theorem isMember_or_isShown {id : DeclId} (exported : context.isExported id = true) :
    isMember context.tree id = true ∨ context.IsShown id := by
  unfold isExported at exported
  rw [Bool.or_eq_true, Bool.or_eq_true] at exported
  rcases exported with (none | isMember) | shown
  · exact absurd (List.isEmpty_iff.mp none) required
  · exact .inl isMember
  · obtain ⟨name, listed, contains⟩ := List.any_eq_true.mp shown
    exact .inr ⟨name, listed, Text.hasWord_of_containsWord contains⟩

theorem isScreened_of_exported {item : Item} {id : DeclId} (presents : context.Presents item id)
    (exported : context.isExported id = true) : context.IsScreened item :=
  ⟨⟨id, presents⟩, .inr ⟨id, presents, isMember_or_isShown required exported⟩⟩

omit required in
theorem isScreened_of_untested {item : Item} {id : DeclId} (presents : context.Presents item id)
    (untested : context.IsUntested item) : context.IsScreened item :=
  ⟨⟨id, presents⟩, .inl untested⟩

omit required in
theorem IsEntered.isExported {id : DeclId} (entered : context.IsEntered id)
    (record : (context.tree.decl id).kind.isRecord) : context.isExported id = true := by
  unfold IsEntered at entered
  dsimp only at entered
  split at entered
  case h_1 isNamespace => rw [isNamespace] at record; cases record
  case h_2 isLinkage => rw [isLinkage] at record; cases record
  case h_3 => exact entered.2.2
  case h_4 => exact entered.2.2
  case h_5 => cases entered

omit required in
/-- A class that belongs to the class around it is a member. -/
theorem isScreened_opaque {outer : DeclId} {inner : OpaqueClass}
    (visited : context.IsVisited outer) (isClass : (context.tree.decl outer).kind.isRecord)
    (isOpaque : context.IsOpaqueIn outer inner) : context.IsScreened (.opaque_ inner) := by
  obtain ⟨id, child, record, -, same⟩ := isOpaque
  have typed : inner.cppType = context.tree.qualifiedName id := by
    rw [same]
  have presents := Presents.opaque_ visited isClass child record typed
  -- A class can be declared in another one and belong elsewhere, as a friend does.
  by_cases inside : context.tree.semanticParent id = some outer
  · have isMember : isMember context.tree id = true := by
      unfold UnitContext.isMember
      rw [inside, Option.any_some]
      dsimp only
      rw [isClass, Bool.true_or]
    exact ⟨⟨id, presents⟩, .inr ⟨id, presents, .inl isMember⟩⟩
  · exact isScreened_of_untested presents (.opaque_ child typed inside)

theorem IsMade.isScreened {fragment : Fragment} (made : context.IsMade unit fragment) :
    ∀ item ∈ fragment.items, item.presents = true → context.IsScreened item := by
  cases made with
  | module_ | enclosing =>
      exact List.forall_mem_singleton.mpr fun presents => nomatch presents
  | named | synthesized =>
      exact List.forall_mem_singleton.mpr fun presents => nomatch presents
  | class_ visited entered record home inner given =>
      have exported := entered.isExported record
      refine List.forall_mem_cons.mpr ⟨fun _ => isScreened_of_exported required
        (.class_ visited record rfl) exported, ?_⟩
      refine List.forall_mem_append.mpr ⟨List.forall_mem_map.mpr fun found member _ => ?_,
        List.forall_mem_map.mpr fun found member presents => nomatch presents⟩
      exact isScreened_opaque visited record (inner found member)
  | enum visited isEnum =>
      refine List.forall_mem_cons.mpr ⟨fun _ => isScreened_of_untested (.enum visited isEnum) .enum,
        List.forall_mem_map.mpr fun found member presents => nomatch presents⟩
  | enumValue visited isEnum member =>
      obtain ⟨child, listed, rfl⟩ := List.mem_map.mp member
      exact List.forall_mem_singleton.mpr fun _ => isScreened_of_untested
        (.looseValue visited isEnum (List.mem_of_mem_filter listed)) .constant
  | function visited isFunction kept exported =>
      exact List.forall_mem_singleton.mpr fun _ => isScreened_of_exported required
        (.function visited isFunction rfl) exported
  | constant visited isVariable =>
      exact List.forall_mem_singleton.mpr fun _ =>
        isScreened_of_untested (.constant visited isVariable) .constant
  | variable_ visited isVariable =>
      exact List.forall_mem_singleton.mpr fun _ =>
        isScreened_of_untested (.variable_ visited isVariable) .variable_

theorem IsBuilderOf.isScreened {id : DeclId} {builder : Builder}
    (made : context.IsBuilderOf id builder) :
    ∀ item ∈ builder.items, item.presents = true → context.IsScreened item := by
  obtain ⟨visited, isTemplate, -, exported, -, typed, -⟩ := made
  refine List.forall_mem_cons.mpr ⟨fun _ => isScreened_of_exported required
    (.builder visited isTemplate typed) exported, ?_⟩
  exact List.forall_mem_map.mpr fun found member presents => nomatch presents

theorem IsOperatorOf.isScreened {id : DeclId} {operator : FreeOperator}
    (made : context.IsOperatorOf id operator) :
    context.IsScreened (.operator operator.target operator.lambda) := by
  obtain ⟨visited, isFunction, -, exported, found⟩ := made
  exact isScreened_of_exported required (.operator visited isFunction found) exported

theorem isScreened_of_visitUnit {fragments : List Fragment} {progress : Progress}
    (run : context.visitUnit.run ⟨UnitState.empty, []⟩ = some (fragments, progress)) :
    ∀ item ∈ (context.bindings fragments progress.unit).items, item.presents = true →
      context.IsScreened item :=
  forall_items_of_visitUnit run (fun made => made.isScreened required)
    (fun made => made.isScreened required) fun made _ => made.isScreened required

end

end UnitContext

/-- If there are export macros, whatever binds a class, a class template, an enum, a function or a
variable does so because of a declaration that belongs to a class or shows one of the macros, unless
it binds an enum, a variable or an opaque class that belongs elsewhere.  So all of it is covered if
and only if those are. -/
theorem export_macros_are_required_iff {depth : Nat} {options : BindOptions}
    {index : ProjectIndex} {unit : SourceUnit} {relative : String} {result : UnitResult}
    (required : options.exportMacros ≠ [])
    (run : generateUnit depth options index unit relative = some result) :
    (∀ item ∈ result.bindings.items, item.presents = true →
        (UnitContext.ofUnit depth unit options index relative).IsScreened item) ∧
      ((∀ item ∈ result.bindings.items, item.presents = true →
          (UnitContext.ofUnit depth unit options index relative).IsCovered item) ↔
        ∀ item ∈ result.bindings.items,
          (UnitContext.ofUnit depth unit options index relative).IsUntested item →
          (UnitContext.ofUnit depth unit options index relative).IsCovered item) := by
  obtain ⟨progress, visitRun, made⟩ := bindings_of_generateUnit run
  have screened := UnitContext.isScreened_of_visitUnit required visitRun
  rw [← made] at screened
  refine ⟨screened, ⟨fun covered item member untested =>
    covered item member untested.presents, fun untested item member presents => ?_⟩⟩
  obtain ⟨-, isUntested | covered⟩ := screened item member presents
  · exact untested item member isUntested
  · exact covered

/-- The options of a run with an export macro. -/
def exportingOptions : BindOptions :=
  { BindOptions.plain with exportMacros := ["API"] }

/-- Two classes and two functions, one of each with the export macro. -/
def exportedUnit : SourceUnit :=
  .ofSteps [.builtin "void", .add 0 .classDecl "Shown", .setExtent 1 "class API Shown \x7b\x7d",
    .add 0 .classDecl "Hidden", .setExtent 2 "class APIS Hidden \x7b\x7d",
    .function .functionDecl 0 "show" 0, .setExtent 3 "API void show()",
    .function .functionDecl 0 "hide" 0]

def exportedItems : List Item :=
  [.fragment (.class_ ⟨"rb_cShown", "Shown", "Shown", none, .global, [], [.constructor [] []], []⟩),
   .member "Shown" (.constructor [] []),
   .fragment (.function .global ⟨"show", "&show", none, [], false⟩)]

theorem exported_declarations_are_bound :
    ∃ result, generateUnit 0 exportingOptions .empty exportedUnit "unit.hpp" = some result ∧
      result.bindings.items = exportedItems ∧
      ∀ item ∈ result.bindings.items, item.presents = true →
        (UnitContext.ofUnit 0 exportedUnit exportingOptions .empty "unit.hpp").IsCovered item := by
  have made : (generateUnit 0 exportingOptions .empty exportedUnit "unit.hpp").map
      (·.bindings.items) = some exportedItems := by
    decide +kernel
  obtain ⟨result, run, items⟩ := Option.map_eq_some_iff.mp made
  refine ⟨result, run, items, (export_macros_are_required_iff (by decide) run).2.mpr ?_⟩
  rw [items]
  intro item member untested
  simp only [exportedItems, List.mem_cons, List.not_mem_nil, or_false] at member
  rcases member with rfl | rfl | rfl <;> nomatch untested

/-- An enum and a variable without the export macro. -/
def unexportedUnit : SourceUnit :=
  .ofSteps [.builtin "int", .enumeration 0 "Color", .setExtent 1 "enum Color \x7b\x7d",
    .var 0 "limit" 0, .setExtent 2 "int limit"]

def unexportedContext : UnitContext :=
  .ofUnit 0 unexportedUnit exportingOptions .empty "unit.hpp"

theorem unexportedContext_bare (id : DeclId) :
    UnitContext.isMember unexportedContext.tree id = false ∧
      'A' ∉ (unexportedContext.tree.decl id).extent.toList := by
  by_cases inside : id < 3
  · have each : ∀ id < 3, UnitContext.isMember unexportedContext.tree id = false ∧
        'A' ∉ (unexportedContext.tree.decl id).extent.toList := by
      decide +kernel
    exact each id inside
  · have outside : unexportedContext.tree.size ≤ id := by
      refine le_trans ?_ (Nat.le_of_not_lt inside)
      decide +kernel
    unfold UnitContext.isMember DeclTree.semanticParent
    rw [DeclTree.decl_of_size_le outside]
    exact ⟨rfl, List.not_mem_nil⟩

theorem unexportedContext_not_isShown (id : DeclId) : ¬ unexportedContext.IsShown id := by
  rintro ⟨name, listed, -, front, back, whole, -, -⟩
  cases List.mem_singleton.mp listed
  have without := (unexportedContext_bare id).2
  rw [whole] at without
  exact without (List.mem_append_left _ (List.mem_append_right _ (by decide)))

/-- They are bound although they belong to no class and do not show the macro. -/
theorem unexported_enum_and_variable_are_bound :
    ∃ result, generateUnit 0 exportingOptions .empty unexportedUnit "unit.hpp" = some result ∧
      result.bindings.items = [.fragment (.enum "rb_cColor" "Color" "Color" .global []),
        .fragment (.variable_ .global "limit" "&limit" false)] ∧
      ∀ item ∈ result.bindings.items, item.presents = true ∧
        ¬ unexportedContext.IsCovered item := by
  have made : (generateUnit 0 exportingOptions .empty unexportedUnit "unit.hpp").map
      (·.bindings.items) = some [.fragment (.enum "rb_cColor" "Color" "Color" .global []),
        .fragment (.variable_ .global "limit" "&limit" false)] := by
    decide +kernel
  obtain ⟨result, run, items⟩ := Option.map_eq_some_iff.mp made
  have uncovered (item : Item) : ¬ unexportedContext.IsCovered item := by
    rintro ⟨id, -, belongs | shown⟩
    · rw [(unexportedContext_bare id).1] at belongs
      cases belongs
    · exact unexportedContext_not_isShown id shown
  refine ⟨result, run, items, fun item member => ⟨?_, uncovered item⟩⟩
  rw [items] at member
  simp only [List.mem_cons, List.not_mem_nil, or_false] at member
  rcases member with rfl | rfl <;> rfl

end Bindery
