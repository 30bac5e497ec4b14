import Bindery.Proofs.Binding.Sequence

/-!
# Types bound again

Within a unit no C++ type is bound twice.  An instantiation that is synthesized is looked up in the
index as well, so it is new to the whole run; but a class, an enum or the instantiation that a
typedef names is only looked up among the types of its own unit.
-/

set_option autoImplicit false
set_option maxRecDepth 100000

namespace Bindery

open Fragment

namespace UnitContext

/-- The C++ types for which the traversal comes to a declaration: a class, an opaque class inside
one, an enum, or a typedef that names the type. -/
inductive Declares (context : UnitContext) : String → Prop
  | class_ {id : DeclId} (visited : context.IsVisited id)
      (record : (context.tree.decl id).kind.isRecord) :
      Declares context (context.tree.qualifiedName id)
  | opaque_ {outer id : DeclId} (visited : context.IsVisited outer)
      (child : id ∈ context.tree.children outer)
      (record : (context.tree.decl id).kind.isRecord) :
      Declares context (context.tree.qualifiedName id)
  | enum {id : DeclId} (visited : context.IsVisited id)
      (isEnum : (context.tree.decl id).kind = .enumDecl) :
      Declares context (context.tree.qualifiedName id)
  | named {id template : DeclId} {cppType : String} {args : List String}
      (visited : context.IsVisited id) (isTypedef : (context.tree.decl id).kind.isTypedef)
      (names : context.namedInstantiation? id = some (template, cppType, args)) :
      Declares context cppType

variable {context : UnitContext} {unit : UnitState}

theorem knownClass?_eq_none_of_unbound {cppType : String}
    (unbound : context.isBound unit cppType = false) :
    context.index.knownClass? cppType = none := by
  simp only [isBound, boundIdentifier?, Bool.or_eq_false_iff, Option.isSome_eq_false_iff,
    Option.isNone_iff_eq_none, Option.or_eq_none_iff] at unbound
  exact unbound.2.2

/-- A type that a fragment binds has a declaration, or no earlier unit has bound it. -/
theorem IsMade.declares_or_unknown {fragment : Fragment} (made : context.IsMade unit fragment)
    {entry : String × String} (bound : entry ∈ fragment.boundTypes) :
    context.Declares entry.1 ∨ context.index.knownClass? entry.1 = none := by
  cases made with
  | class_ visited entered record home inner =>
      rcases List.mem_cons.mp bound with rfl | inside
      · exact .inl (.class_ visited record)
      · obtain ⟨found, member, rfl⟩ := List.mem_map.mp inside
        obtain ⟨id, child, isRecord, -, rfl⟩ := inner found member
        exact .inl (.opaque_ visited child isRecord)
  | enum visited isEnum =>
      cases List.mem_singleton.mp bound
      exact .inl (.enum visited isEnum)
  | named visited isTypedef names =>
      cases List.mem_singleton.mp bound
      exact .inl (.named visited isTypedef names)
  | synthesized needed admitted unbound =>
      cases List.mem_singleton.mp bound
      exact .inr (knownClass?_eq_none_of_unbound unbound)
  | _ => cases bound

end UnitContext

/-! ## Runs -/

theorem Turn.ComesAfter.declares_or_new {earlier : List Turn} {turn : Turn}
    (after : turn.ComesAfter .empty earlier) {cppType : String}
    (bound : cppType ∈ turn.types.map Prod.fst) :
    turn.context.Declares cppType ∨ cppType ∉ (typesOf earlier).map Prod.fst := by
  obtain ⟨⟨progress, run, -⟩, known⟩ := after
  obtain ⟨entry, member, rfl⟩ := List.mem_map.mp bound
  obtain ⟨fragment, found, inside⟩ := List.mem_flatMap.mp member
  have made := (UnitContext.visitUnit_made run).2 fragment found
  rcases made.declares_or_unknown inside with declares | unknown
  · exact .inl declares
  · rw [known] at unknown
    exact .inr (lookup_eq_none_iff_not_mem_keys.mp unknown)

theorem mem_keys_typesOf {turns : List Turn} {cppType : String} :
    cppType ∈ (typesOf turns).map Prod.fst ↔
      ∃ turn ∈ turns, cppType ∈ turn.types.map Prod.fst := by
  rw [typesOf, List.map_flatMap, List.mem_flatMap]

/-- No type is bound twice if and only if no unit binds a type twice or one that an earlier unit has
bound. -/
theorem nodup_typesOf_iff {turns : List Turn} :
    ((typesOf turns).map Prod.fst).Nodup ↔
      (∀ turn ∈ turns, (turn.types.map Prod.fst).Nodup) ∧
        Everywhere (fun earlier turn _ => ∀ cppType ∈ turn.types.map Prod.fst,
          cppType ∉ (typesOf earlier).map Prod.fst) turns := by
  rw [typesOf, List.map_flatMap, List.nodup_flatMap, pairwise_iff_everywhere]
  refine and_congr_right fun _ => forall₄_congr fun earlier turn later _ => ?_
  constructor
  · intro apart cppType bound again
    obtain ⟨other, member, there⟩ := mem_keys_typesOf.mp again
    exact apart other member there bound
  · intro new other member cppType there bound
    exact new cppType bound (mem_keys_typesOf.mpr ⟨other, member, there⟩)

/-- No unit binds a C++ type twice, and it has a declaration for whatever it binds again after an
earlier unit; so no type is bound twice in a run if and only if no unit has a declaration for a type
that it binds and that an earlier unit has bound. -/
theorem types_are_bound_once_iff {depth : Nat} {options : BindOptions}
    {sources : List (SourceUnit × String)} {turns : List Turn}
    (run : generateUnits depth options .empty sources = some turns) :
    (∀ earlier turn later, turns = earlier ++ turn :: later →
      (turn.types.map Prod.fst).Nodup ∧
        ∀ cppType ∈ turn.types.map Prod.fst,
          turn.context.Declares cppType ∨ cppType ∉ (typesOf earlier).map Prod.fst) ∧
    (((typesOf turns).map Prod.fst).Nodup ↔
      ∀ earlier turn later, turns = earlier ++ turn :: later →
        ∀ cppType ∈ turn.types.map Prod.fst, turn.context.Declares cppType →
          cppType ∉ (typesOf earlier).map Prod.fst) := by
  have after := comesAfter_everywhere run
  refine ⟨fun earlier turn later parts => ?_, ?_⟩
  · have comes := after earlier turn later parts
    exact ⟨comes.nodup_types, fun _ bound => comes.declares_or_new bound⟩
  rw [nodup_typesOf_iff]
  constructor
  · rintro ⟨-, new⟩ earlier turn later parts cppType bound -
    exact new earlier turn later parts cppType bound
  · intro new
    refine ⟨fun turn member => ?_, fun earlier turn later parts cppType bound => ?_⟩
    · obtain ⟨earlier, later, parts⟩ := List.append_of_mem member
      exact (after earlier turn later parts).nodup_types
    · rcases (after earlier turn later parts).declares_or_new bound with declares | unknown
      · exact new earlier turn later parts cppType bound declares
      · exact unknown

/-- A header with a class template and a struct that derives from an instantiation of it. -/
def baseSource : SourceUnit × String :=
  (.ofHeader "/src/a.hpp"
    [.classTemplate 0 "Base" ["T"], .specialization 1 "int", .named 3, .add 0 .structDecl "D",
     .base 4 1], "a.hpp")

def baseIndex : ProjectIndex :=
  ⟨[("Base", ⟨"Base_builder", "a-rb.ipp"⟩)], [("D", "rb_cD"), ("Base<int>", "rb_cBaseInt")]⟩

theorem generateUnits_behind_base {source : SourceUnit × String} {types : List (String × String)}
    (bound : (generateUnit 1 .plain baseIndex source.1 source.2).map (fun result =>
      allBound result.bindings.fragments) = some types) :
    ∃ turns, generateUnits 1 .plain .empty [baseSource, source] = some turns ∧
      typesOf turns = ("Base<int>", "rb_cBaseInt") :: ("D", "rb_cD") :: types := by
  have first : (generateUnit 1 .plain .empty baseSource.1 baseSource.2).map (fun result =>
      (result.index, allBound result.bindings.fragments)) =
        some (baseIndex, [("Base<int>", "rb_cBaseInt"), ("D", "rb_cD")]) := by
    decide +kernel
  obtain ⟨base, baseRun, made⟩ := Option.map_eq_some_iff.mp first
  obtain ⟨index, baseTypes⟩ := Prod.mk.inj made
  obtain ⟨result, run, rfl⟩ := Option.map_eq_some_iff.mp bound
  rw [← index] at run
  refine ⟨_, generateUnits_eq_cons baseRun (generateUnits_eq_cons run rfl), ?_⟩
  simp [typesOf, Turn.types, Turn.fragments, baseTypes]

/-- Steps that build the class template of that header in another one, and the instantiation. -/
def includedBase : List TreeBuilder.Step :=
  [.inFile "/src/a.hpp", .classTemplate 0 "Base" ["T"], .inUnit, .specialization 1 "int", .named 3]

/-- Another header with a struct of its own that derives from the instantiation. -/
def derivedSource : SourceUnit × String :=
  (.ofHeader "/src/b.hpp" (includedBase ++ [.add 0 .structDecl "E", .base 4 1]), "b.hpp")

/-- Another header with a typedef of the instantiation. -/
def namedBaseSource : SourceUnit × String :=
  (.ofHeader "/src/b.hpp" (includedBase ++ [.newTypedef .typedefDecl 0 "BaseInteger" 1]), "b.hpp")

theorem shared_base_is_bound_once :
    ∃ turns, generateUnits 1 .plain .empty [baseSource, derivedSource] = some turns ∧
      (typesOf turns).map Prod.fst = ["Base<int>", "D", "E"] ∧
      ∀ earlier turn later, turns = earlier ++ turn :: later →
        ∀ cppType ∈ turn.types.map Prod.fst, turn.context.Declares cppType →
          cppType ∉ (typesOf earlier).map Prod.fst := by
  have bound : (generateUnit 1 .plain baseIndex derivedSource.1 derivedSource.2).map
      (fun result => allBound result.bindings.fragments) = some [("E", "rb_cE")] := by
    decide +kernel
  obtain ⟨turns, run, types⟩ := generateUnits_behind_base bound
  have distinct : ((typesOf turns).map Prod.fst).Nodup := by
    rw [types]
    decide
  exact ⟨turns, run, by rw [types]; rfl, (types_are_bound_once_iff run).2.mp distinct⟩

/-- The typedef binds the instantiation again that the other header has synthesized. -/
theorem named_base_is_bound_twice :
    ∃ turns, generateUnits 1 .plain .empty [baseSource, namedBaseSource] = some turns ∧
      typesOf turns =
        [("Base<int>", "rb_cBaseInt"), ("D", "rb_cD"), ("Base<int>", "rb_cBaseInteger")] ∧
      ¬ ((typesOf turns).map Prod.fst).Nodup := by
  have bound : (generateUnit 1 .plain baseIndex namedBaseSource.1 namedBaseSource.2).map
      (fun result => allBound result.bindings.fragments) =
        some [("Base<int>", "rb_cBaseInteger")] := by
    decide +kernel
  obtain ⟨turns, run, types⟩ := generateUnits_behind_base bound
  refine ⟨turns, run, types, ?_⟩
  rw [types]
  decide

end Bindery
