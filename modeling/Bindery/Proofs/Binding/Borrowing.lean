import Bindery.Proofs.Binding.Distinct
import Bindery.Proofs.Binding.Sequence

/-!
# Borrowed identifiers

An identifier is a local variable of the init function that defines it.  The index tells a unit the
identifiers of earlier units all the same, and in two places they get into its code: as what a free
operator is attached to, and as what an instantiation is attached to whose template is inside a
class.  Whatever else a unit uses it declares itself.
-/

set_option autoImplicit false
set_option maxRecDepth 100000

namespace Bindery

open Fragment

/-- The identifiers that the code of a unit uses: those that operators and fragments are attached
to. -/
def UnitBindings.usedIdentifiers (bindings : UnitBindings) : List String :=
  bindings.operators.filterMap (·.target) ++ bindings.fragments.filterMap (·.parent.identifier?)

/-- Whether a unit defines all identifiers that its code uses. -/
def UnitBindings.IsSelfContained (bindings : UnitBindings) : Prop :=
  bindings.usedIdentifiers ⊆ allDefined bindings.fragments

instance (bindings : UnitBindings) : Decidable bindings.IsSelfContained :=
  inferInstanceAs (Decidable (bindings.usedIdentifiers ⊆ allDefined bindings.fragments))

namespace UnitContext

/-- Whether an instantiation is needed whose template is inside the given class. -/
def NeedsInside (context : UnitContext) (outer : DeclId) : Prop :=
  (context.tree.decl outer).kind.isRecord ∧
    ∃ template args cppType, context.Spells template args cppType ∧
      context.tree.IsInside template outer

/-- A fragment is attached to what the unit has or to a class that an earlier unit has bound; the
latter only if something inside the class is needed. -/
theorem IsMade.parent_isHome {context : UnitContext} {unit : UnitState} {fragment : Fragment}
    (made : context.IsMade unit fragment) :
    fragment.parent.IsHome unit ∨
      ∃ outer identifier, context.NeedsInside outer ∧
        context.index.knownClass? (context.tree.qualifiedName outer) = some identifier ∧
        fragment.parent = .class_ identifier := by
  have found {template : DeclId} {args : List String} {cppType : String} {parent : Parent}
      (needed : context.Spells template args cppType)
      (scope : context.IsScopeOf unit template parent) :
      parent.IsHome unit ∨ ∃ outer identifier, context.NeedsInside outer ∧
        context.index.knownClass? (context.tree.qualifiedName outer) = some identifier ∧
        parent = .class_ identifier := by
    rcases scope with home | ⟨outer, identifier, inside, record, known, attached⟩
    · exact .inl home
    · exact .inr ⟨outer, identifier, ⟨record, template, args, cppType, needed, inside⟩, known,
        attached⟩
  cases made with
  | module_ _ _ _ home => exact .inl home
  | enclosing needed _ _ scope => exact found needed scope
  | class_ _ _ _ home => exact .inl home
  | enum _ _ _ home => exact .inl home
  | enumValue _ _ _ home => exact .inl home
  | named _ _ _ _ _ home => exact .inl home
  | synthesized needed _ _ scope => exact found needed scope
  | function _ _ _ _ _ home => exact .inl home
  | constant _ _ _ home => exact .inl home
  | variable_ _ _ _ home => exact .inl home

end UnitContext

section

variable {context : UnitContext} {fragments : List Fragment} {progress : Progress}
  (run : context.visitUnit.run ⟨UnitState.empty, []⟩ = some (fragments, progress))
include run

theorem identifierFor?_iff_mem_allBound {cppType identifier : String} :
    progress.unit.identifierFor? cppType = some identifier ↔
      (cppType, identifier) ∈ allBound fragments := by
  obtain ⟨sound, bound⟩ := balanced_of_visitUnit run
  rw [bound.mem_iff, UnitState.identifierFor?, lookup_eq_some_iff_mem sound.types]

theorem mem_allDefined_of_isHome {parent : Parent} (home : parent.IsHome progress.unit)
    {identifier : String} (attached : parent.identifier? = some identifier) :
    identifier ∈ allDefined fragments := by
  cases parent with
  | global => cases attached
  | module_ own =>
      cases Option.some.inj attached
      obtain ⟨qualified, isOpen, rfl⟩ := home
      refine (allDefined_perm fragments).symm.subset (List.mem_append_left _ ?_)
      exact (opened_of_visitUnit run).2.symm.subset (List.mem_map_of_mem isOpen)
  | class_ own =>
      cases Option.some.inj attached
      obtain ⟨cppType, bound⟩ := home
      exact mem_allDefined_of_mem_allBound ((identifierFor?_iff_mem_allBound run).mp bound)

end

/-! ## Runs -/

/-- The identifiers that a unit takes from earlier ones: for an operator of a type that it does not
bind itself, and for the class around something that it needs. -/
inductive Turn.Borrows (earlier : List Turn) (turn : Turn) : String → Prop
  | operator {group : OperatorGroup} {identifier : String}
      (waits : group ∈ turn.result.bindings.operators)
      (foreign : group.cppType ∉ turn.types.map Prod.fst)
      (bound : (typesOf earlier).lookup group.cppType = some identifier) :
      Turn.Borrows earlier turn identifier
  | scope {outer : DeclId} {fragment : Fragment} {identifier : String}
      (needed : turn.context.NeedsInside outer)
      (bound : (typesOf earlier).lookup (turn.context.tree.qualifiedName outer) = some identifier)
      (member : fragment ∈ turn.fragments) (attached : fragment.parent = .class_ identifier) :
      Turn.Borrows earlier turn identifier

namespace Turn

variable {earlier : List Turn} {turn : Turn} {identifier : String}

/-- What operators are attached to: the type as the unit binds it, or else as an earlier one
does. -/
theorem ComesAfter.target_eq (after : turn.ComesAfter .empty earlier) {group : OperatorGroup}
    (waits : group ∈ turn.result.bindings.operators) :
    group.target = (turn.types.lookup group.cppType).or
      ((typesOf earlier).lookup group.cppType) := by
  have distinct := after.nodup_types
  obtain ⟨⟨progress, run, made⟩, known⟩ := after
  obtain ⟨-, bound⟩ := balanced_of_visitUnit run
  rw [made] at waits
  obtain ⟨entry, -, rfl⟩ := List.mem_map.mp waits
  change (progress.unit.byType.lookup entry.1).or (turn.context.index.knownClass? entry.1) = _
  rw [known, ← lookup_eq_of_perm bound distinct]
  rfl

theorem Borrows.mem_usedIdentifiers (borrows : turn.Borrows earlier identifier)
    (after : turn.ComesAfter .empty earlier) :
    identifier ∈ turn.result.bindings.usedIdentifiers := by
  cases borrows with
  | operator waits foreign bound =>
      refine List.mem_append_left _ (List.mem_filterMap.mpr ⟨_, waits, ?_⟩)
      have absent := lookup_eq_none_iff_not_mem_keys.mpr foreign
      rw [after.target_eq waits, absent, Option.none_or, bound]
  | scope needed bound member attached =>
      refine List.mem_append_right _ (List.mem_filterMap.mpr ⟨_, member, ?_⟩)
      rw [attached]
      rfl

theorem ComesAfter.defined_or_borrows (after : turn.ComesAfter .empty earlier)
    (used : identifier ∈ turn.result.bindings.usedIdentifiers) :
    identifier ∈ allDefined turn.fragments ∨ turn.Borrows earlier identifier := by
  rcases List.mem_append.mp used with target | attached
  · obtain ⟨group, waits, found⟩ := List.mem_filterMap.mp target
    rw [after.target_eq waits] at found
    rcases Option.or_eq_some_iff.mp found with here | ⟨absent, earlierUnit⟩
    · have bound := (lookup_eq_some_iff_mem after.nodup_types).mp here
      exact .inl (mem_allDefined_of_mem_allBound bound)
    · exact .inr (.operator waits (not_mem_keys_of_lookup_eq_none absent) earlierUnit)
  · obtain ⟨fragment, member, found⟩ := List.mem_filterMap.mp attached
    obtain ⟨⟨progress, run, -⟩, known⟩ := after
    have made := (UnitContext.visitUnit_made run).2 fragment member
    rcases made.parent_isHome with home | ⟨outer, own, needed, bound, attached⟩
    · exact .inl (mem_allDefined_of_isHome run home found)
    · rw [attached] at found
      cases Option.some.inj found
      rw [known] at bound
      exact .inr (.scope needed bound member attached)

end Turn

/-- What a unit of a run uses it defines or borrows from earlier units; so it defines all that it
uses if and only if it defines what it borrows. -/
theorem units_are_self_contained_iff {depth : Nat} {options : BindOptions}
    {sources : List (SourceUnit × String)} {turns : List Turn}
    (run : generateUnits depth options .empty sources = some turns) :
    ∀ earlier turn later, turns = earlier ++ turn :: later →
      (∀ identifier ∈ turn.result.bindings.usedIdentifiers,
        identifier ∈ allDefined turn.fragments ∨ turn.Borrows earlier identifier) ∧
      (turn.result.bindings.IsSelfContained ↔
        ∀ identifier, turn.Borrows earlier identifier →
          identifier ∈ allDefined turn.fragments) := by
  intro earlier turn later parts
  have after := comesAfter_everywhere run earlier turn later parts
  refine ⟨fun identifier used => after.defined_or_borrows used, ?_, ?_⟩
  · intro contained identifier borrows
    exact contained (borrows.mem_usedIdentifiers after)
  · intro defined identifier used
    rcases after.defined_or_borrows used with own | borrows
    · exact own
    · exact defined identifier borrows

/-- A header with a namespace that another header opens too, a class in it and an operator of that
class. -/
def pointSource : SourceUnit × String :=
  (.ofHeader "/src/point.hpp"
    [.add 0 .namespaceDecl "geo", .add 1 .classDecl "Point", .named 2, .builtin "bool",
     .function .functionDecl 1 "operator==" 1, .param 3 "left" 0, .param 3 "right" 0],
    "point.hpp")

theorem geometry_units_are_self_contained :
    ∃ turns,
      generateUnits 2 .plain .empty [(geometryUnit, "unit.hpp"), pointSource] = some turns ∧
      (turns.flatMap (·.result.bindings.operators)).map (·.target) = [some "rb_cGeoPoint"] ∧
      ∀ earlier turn later, turns = earlier ++ turn :: later →
        ∀ identifier, turn.Borrows earlier identifier → identifier ∈ allDefined turn.fragments := by
  have contained :
      (generateUnits 2 .plain .empty [(geometryUnit, "unit.hpp"), pointSource]).map (fun turns =>
        ((turns.flatMap (·.result.bindings.operators)).map (·.target),
          decide (∀ turn ∈ turns, turn.result.bindings.IsSelfContained))) =
        some ([some "rb_cGeoPoint"], true) := by
    decide +kernel
  obtain ⟨turns, run, found⟩ := Option.map_eq_some_iff.mp contained
  obtain ⟨targets, decided⟩ := Prod.mk.inj found
  refine ⟨turns, run, targets, fun earlier turn later parts => ?_⟩
  have contained := of_decide_eq_true decided turn (by simp [parts])
  exact (units_are_self_contained_iff run earlier turn later parts).2.mp contained

/-- A header with a class, and one that includes it and declares an operator of the class. -/
def equalitySources : List (SourceUnit × String) :=
  [(.ofHeader "/src/a.hpp" [.add 0 .classDecl "A"], "a.hpp"),
   (.ofHeader "/src/b.hpp"
      [.inFile "/src/a.hpp", .add 0 .classDecl "A", .named 1, .inUnit, .builtin "bool",
       .function .functionDecl 0 "operator==" 1, .param 2 "left" 0, .param 2 "right" 0],
      "b.hpp")]

/-- The operator is attached to the local variable of another init function. -/
theorem operator_target_is_borrowed :
    ∃ turns, generateUnits 0 .plain .empty equalitySources = some turns ∧
      ∃ turn ∈ turns, turn.fragments = [] ∧
        turn.result.bindings.operators.map (·.target) = [some "rb_cA"] ∧
        ¬ turn.result.bindings.IsSelfContained := by
  have borrowed : (generateUnits 0 .plain .empty equalitySources).map (fun turns =>
      decide (∃ turn ∈ turns, turn.fragments = [] ∧
        turn.result.bindings.operators.map (·.target) = [some "rb_cA"] ∧
        ¬ turn.result.bindings.IsSelfContained)) = some true := by
    decide +kernel
  obtain ⟨turns, run, decided⟩ := Option.map_eq_some_iff.mp borrowed
  exact ⟨turns, run, of_decide_eq_true decided⟩

end Bindery
