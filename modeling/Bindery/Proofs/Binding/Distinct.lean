import Bindery.Proofs.Binding.Provenance
import Bindery.Proofs.Binding.ScopeOrder

/-!
# Distinct definitions

Classes, enums and instantiations are registered under their identifiers, so no two of a unit share
one.  Modules are known by the qualified names of their namespaces and builders by those of their
templates, and neither identifier is looked up before it is given away; so two of them are the same
whenever the names have the same camel path.
-/

set_option autoImplicit false
set_option maxRecDepth 100000

namespace Bindery

open Draft Fragment

/-! ## The ledger of modules -/

namespace Fragment

def moduleIdentifier? : Fragment → Option String
  | module_ identifier _ _ => some identifier
  | _ => none

/-- The identifiers of the modules among fragments. -/
def allModules (fragments : List Fragment) : List String :=
  fragments.filterMap moduleIdentifier?

theorem allModules_append (left right : List Fragment) :
    allModules (left ++ right) = allModules left ++ allModules right :=
  List.filterMap_append

/-- What fragments define is what they bind and their modules. -/
theorem allDefined_perm (fragments : List Fragment) :
    (allDefined fragments).Perm (allModules fragments ++ (allBound fragments).map Prod.snd) := by
  induction fragments with
  | nil => exact .nil
  | cons fragment rest ih =>
      have parts : fragment.definedIdentifiers =
          allModules [fragment] ++ fragment.boundTypes.map Prod.snd := by
        cases fragment with
        | class_ binding =>
            rw [definedIdentifiers, boundTypes, List.map_cons, List.map_map]
            rfl
        | _ => rfl
      have front := allModules_append [fragment] rest
      rw [List.singleton_append] at front
      rw [allDefined, List.flatMap_cons, parts, front, allBound_cons, List.map_append,
        List.append_assoc, List.append_assoc]
      refine .append_left _ (.trans (.append_left _ ih) ?_)
      exact List.perm_append_comm_assoc _ _ _

end Fragment

/-- Every open namespace is open once and has its module. -/
structure Draft.Opened (draft : Draft) : Prop where
  distinct : draft.unit.namespaces.Nodup
  modules : (allModules draft.fragments).Perm (draft.unit.namespaces.map Name.moduleIdentifier)

theorem opened_start : Draft.start.Opened :=
  ⟨List.nodup_nil, .nil⟩

section

variable {context : UnitContext} {before after : Draft}

theorem Draft.Opened.gain {added : List Fragment} (opened : before.Opened)
    (namespaces : after.unit.namespaces = before.unit.namespaces)
    (fragments : after.fragments.Perm (before.fragments ++ added))
    (others : allModules added = []) : after.Opened := by
  refine ⟨namespaces ▸ opened.distinct, ?_⟩
  have modules := fragments.filterMap moduleIdentifier?
  rw [← allModules, ← allModules, allModules_append, others, List.append_nil] at modules
  exact namespaces ▸ modules.trans opened.modules

theorem Draft.Opened.keep (opened : before.Opened)
    (namespaces : after.unit.namespaces = before.unit.namespaces)
    (fragments : after.fragments = before.fragments) : after.Opened :=
  opened.gain namespaces (.of_eq (fragments.trans (List.append_nil _).symm)) rfl

theorem Step.preserves_opened (step : Step context before after) (opened : before.Opened) :
    after.Opened := by
  cases step with
  | note quiet =>
      exact opened.keep quiet.namespaces (congrArg (before.placed ++ ·) quiet.pending)
  | openModule id name new scope =>
      obtain ⟨distinct, modules⟩ := opened
      constructor
      · change (before.unit.namespaces ++ [_]).Nodup
        rw [← List.concat_eq_append]
        exact .concat new distinct
      · change (allModules (before.placed ++ (before.unit.pending ++ [_]))).Perm
          ((before.unit.namespaces ++ [_]).map _)
        rw [← List.append_assoc, allModules_append, List.map_append]
        exact modules.append_right _
  | begin => exact opened.keep rfl rfl
  | finish qualified name builder seeking registered =>
      obtain ⟨-, -, rfl⟩ := UnitState.register?_eq_some registered
      exact opened.gain rfl (.of_eq (List.append_assoc _ _ _).symm) rfl
  | refuse => exact opened.keep rfl rfl
  | promiseClass _ _ _ _ _ registered =>
      obtain ⟨-, -, rfl⟩ := UnitState.register?_eq_some registered
      exact opened.keep rfl rfl
  | settle => exact opened.keep rfl rfl
  | promiseOpaque _ _ _ registered =>
      obtain ⟨-, -, rfl⟩ := UnitState.register?_eq_some registered
      exact opened.keep rfl rfl
  | placeClass binding => exact opened.gain rfl (place_class_perm before binding) rfl
  | promiseTypedef _ _ _ _ _ registered =>
      obtain ⟨-, -, rfl⟩ := UnitState.register?_eq_some registered
      exact opened.keep rfl rfl
  | placeTypedef => exact opened.gain rfl (.of_eq (fragments_place before _)) rfl
  | placeEnum _ _ _ registered =>
      obtain ⟨-, -, rfl⟩ := UnitState.register?_eq_some registered
      exact opened.gain rfl (.of_eq (fragments_place _ _)) rfl
  | placeLoose fragments _ loose =>
      refine opened.gain rfl (.of_eq (fragments_place before _)) ?_
      refine List.filterMap_eq_nil_iff.mpr fun fragment member => ?_
      have nothing := (loose fragment member).1
      cases fragment with
      | module_ => cases nothing
      | _ => rfl

theorem Steps.preserves_opened (steps : Steps context before after) (opened : before.Opened) :
    after.Opened := by
  induction steps with
  | refl => exact opened
  | tail _ step ih => exact step.preserves_opened ih

theorem opened_of_visitUnit {fragments : List Fragment} {progress : Progress}
    (run : context.visitUnit.run ⟨UnitState.empty, []⟩ = some (fragments, progress)) :
    progress.unit.namespaces.Nodup ∧
      (allModules fragments).Perm (progress.unit.namespaces.map Name.moduleIdentifier) := by
  obtain ⟨steps, nothing⟩ := UnitContext.visitUnit_steps run
  obtain ⟨distinct, modules⟩ := Steps.preserves_opened steps opened_start
  refine ⟨distinct, ?_⟩
  change (allModules (fragments ++ progress.unit.pending)).Perm _ at modules
  rwa [nothing, List.append_nil] at modules

end

/-! ## Identifiers from camel paths -/

namespace Name

theorem moduleIdentifier_inj {left right : String} :
    moduleIdentifier left = moduleIdentifier right ↔ camelPath left = camelPath right := by
  simp [moduleIdentifier]

theorem builder_inj {left right : String} :
    builder left = builder right ↔ camelPath left = camelPath right := by
  simp [builder]

end Name

theorem exists_forall₂_of_forall_exists {α β : Type} {relation : α → β → Prop}
    {entries : List β} (each : ∀ entry ∈ entries, ∃ owner, relation owner entry) :
    ∃ owners, List.Forall₂ relation owners entries := by
  induction entries with
  | nil => exact ⟨[], .nil⟩
  | cons entry rest ih =>
      obtain ⟨owner, owns⟩ := each entry List.mem_cons_self
      obtain ⟨owners, others⟩ := ih fun other member => each other (List.mem_cons_of_mem _ member)
      exact ⟨owner :: owners, .cons owns others⟩

/-! ## Units -/

/-- The modules of a unit are those of the given namespaces, each of another qualified name, and its
builders are those of the given class templates in their order. -/
structure UnitContext.IsInventory (context : UnitContext) (bindings : UnitBindings)
    (namespaces templates : List DeclId) : Prop where
  opened : ∀ id ∈ namespaces, (context.tree.decl id).kind = .namespaceDecl
  distinct : (namespaces.map context.tree.qualifiedName).Nodup
  modules : (allModules bindings.fragments).Perm (namespaces.map context.moduleIdentifier)
  builders : List.Forall₂ context.IsBuilderOf templates bindings.builders

def UnitContext.camelPath (context : UnitContext) (id : DeclId) : String :=
  Name.camelPath (context.tree.qualifiedName id)

namespace UnitContext

variable {context : UnitContext} {bindings : UnitBindings} {namespaces templates : List DeclId}

theorem IsInventory.nodup_modules_iff
    (inventory : context.IsInventory bindings namespaces templates) :
    (allModules bindings.fragments).Nodup ↔ (namespaces.map context.camelPath).Nodup :=
  inventory.modules.nodup_iff.trans
    (nodup_map_iff_of_mem fun _ _ _ _ => Name.moduleIdentifier_inj)

theorem IsInventory.nodup_builders_iff
    (inventory : context.IsInventory bindings namespaces templates) :
    (bindings.builders.map (·.name)).Nodup ↔ (templates.map context.camelPath).Nodup := by
  have names : bindings.builders.map (·.name) =
      templates.map fun id => Name.builder (context.tree.qualifiedName id) := by
    rw [← List.forall₂_eq_eq_eq, List.forall₂_map_left_iff, List.forall₂_map_right_iff]
    refine (inventory.builders.imp fun id builder made => ?_).flip
    obtain ⟨-, -, -, -, named, -⟩ := made
    exact named
  rw [names]
  exact nodup_map_iff_of_mem fun _ _ _ _ => Name.builder_inj

end UnitContext

section

variable {context : UnitContext} {fragments : List Fragment} {progress : Progress}
  (run : context.visitUnit.run ⟨UnitState.empty, []⟩ = some (fragments, progress))
include run

theorem exists_isInventory_of_visitUnit {bindings : UnitBindings}
    (made : bindings = context.bindings fragments progress.unit) :
    ∃ namespaces templates, context.IsInventory bindings namespaces templates := by
  obtain ⟨accountable, -⟩ := UnitContext.visitUnit_made run
  obtain ⟨distinct, modules⟩ := opened_of_visitUnit run
  obtain ⟨namespaces, pairs⟩ := exists_forall₂_of_forall_exists accountable.namespaces
  obtain ⟨opened, named⟩ := (List.forall₂_and_left _ _).mp pairs
  have names : namespaces.map context.tree.qualifiedName = progress.unit.namespaces := by
    rwa [← List.forall₂_eq_eq_eq, List.forall₂_map_left_iff]
  obtain ⟨templates, builders⟩ := exists_forall₂_of_forall_exists accountable.builders
  rw [← names] at distinct modules
  rw [List.map_map] at modules
  exact ⟨namespaces, templates, opened, distinct, made ▸ modules, made ▸ builders⟩

theorem identifiers_of_bound_apart :
    ((allBound fragments).map Prod.snd).Nodup ∧
      List.Disjoint (allModules fragments) ((allBound fragments).map Prod.snd) := by
  obtain ⟨sound, bound⟩ := balanced_of_visitUnit run
  obtain ⟨-, modules⟩ := opened_of_visitUnit run
  refine ⟨(bound.map Prod.snd).nodup_iff.mpr sound.identifiers, ?_⟩
  -- Identifiers of modules and of what is bound begin with other letters.
  intro identifier isModule isBound
  obtain ⟨qualified, -, named⟩ := List.mem_map.mp (modules.subset isModule)
  obtain ⟨entry, member, rfl⟩ := List.mem_map.mp isBound
  have starts := sound.startsWith_of_mem (bound.subset member)
  rw [← named, Name.startsWith_moduleIdentifier] at starts
  cases starts

theorem nodup_allDefined_iff : (allDefined fragments).Nodup ↔ (allModules fragments).Nodup := by
  obtain ⟨bound, apart⟩ := identifiers_of_bound_apart run
  rw [(allDefined_perm fragments).nodup_iff, List.nodup_append']
  exact ⟨And.left, fun modules => ⟨modules, bound, apart⟩⟩

end

/-- What a unit binds has an identifier of its own.  The identifiers that the unit defines are
distinct if and only if the camel paths of the namespaces with a module are, and the names of its
builders if and only if the camel paths of the class templates with a builder are. -/
theorem definitions_are_distinct_iff {depth : Nat} {options : BindOptions} {index : ProjectIndex}
    {unit : SourceUnit} {relative : String} {result : UnitResult}
    (run : generateUnit depth options index unit relative = some result) :
    ((allBound result.bindings.fragments).map Prod.snd).Nodup ∧
      List.Disjoint (allModules result.bindings.fragments)
        ((allBound result.bindings.fragments).map Prod.snd) ∧
      ∃ namespaces templates,
        (UnitContext.ofUnit depth unit options index relative).IsInventory result.bindings
          namespaces templates ∧
        ((allDefined result.bindings.fragments).Nodup ↔
          (namespaces.map
            (UnitContext.ofUnit depth unit options index relative).camelPath).Nodup) ∧
        ((result.bindings.builders.map (·.name)).Nodup ↔
          (templates.map
            (UnitContext.ofUnit depth unit options index relative).camelPath).Nodup) := by
  obtain ⟨progress, visitRun, made⟩ := bindings_of_generateUnit run
  obtain ⟨bound, apart⟩ := identifiers_of_bound_apart visitRun
  obtain ⟨namespaces, templates, inventory⟩ := exists_isInventory_of_visitUnit visitRun made
  exact ⟨bound, apart, namespaces, templates, inventory,
    (nodup_allDefined_iff visitRun).trans inventory.nodup_modules_iff,
    inventory.nodup_builders_iff⟩

theorem geometry_definitions_are_distinct :
    ∃ result namespaces templates,
      generateUnit 2 .plain .empty geometryUnit "unit.hpp" = some result ∧
      (UnitContext.ofUnit 2 geometryUnit .plain .empty "unit.hpp").IsInventory result.bindings
        namespaces templates ∧
      (namespaces.map
        (UnitContext.ofUnit 2 geometryUnit .plain .empty "unit.hpp").camelPath).Nodup ∧
      (templates.map
        (UnitContext.ofUnit 2 geometryUnit .plain .empty "unit.hpp").camelPath).Nodup := by
  have apart : (generateUnit 2 .plain .empty geometryUnit "unit.hpp").map (fun result =>
      decide ((allDefined result.bindings.fragments).Nodup ∧
        (result.bindings.builders.map (·.name)).Nodup)) = some true := by
    decide +kernel
  obtain ⟨result, run, decided⟩ := Option.map_eq_some_iff.mp apart
  obtain ⟨identifiers, builders⟩ := of_decide_eq_true decided
  obtain ⟨-, -, namespaces, templates, inventory, modulesIff, buildersIff⟩ :=
    definitions_are_distinct_iff run
  exact ⟨result, namespaces, templates, run, inventory, modulesIff.mp identifiers,
    buildersIff.mp builders⟩

/-- Two namespaces whose names differ in an underscore. -/
def meshUnit : SourceUnit :=
  .ofSteps [.add 0 .namespaceDecl "mesh_io", .add 0 .namespaceDecl "meshIo"]

/-- Two class templates whose names differ in an underscore. -/
def pointUnit : SourceUnit :=
  .ofSteps [.classTemplate 0 "Point" ["T"], .classTemplate 0 "Point_" ["T"]]

/-- One identifier is defined twice, and one builder has two definitions. -/
theorem definitions_clash :
    (∃ result, generateUnit 0 .plain .empty meshUnit "unit.hpp" = some result ∧
      ¬ (allDefined result.bindings.fragments).Nodup) ∧
    ∃ result, generateUnit 0 .plain .empty pointUnit "unit.hpp" = some result ∧
      ¬ (result.bindings.builders.map (·.name)).Nodup := by
  have modules : (generateUnit 0 .plain .empty meshUnit "unit.hpp").map (fun result =>
      allDefined result.bindings.fragments) = some ["rb_mMeshIo", "rb_mMeshIo"] := by
    decide +kernel
  have builders : (generateUnit 0 .plain .empty pointUnit "unit.hpp").map (fun result =>
      result.bindings.builders.map (·.name)) = some ["Point_builder", "Point_builder"] := by
    decide +kernel
  obtain ⟨first, firstRun, identifiers⟩ := Option.map_eq_some_iff.mp modules
  obtain ⟨second, secondRun, names⟩ := Option.map_eq_some_iff.mp builders
  refine ⟨⟨first, firstRun, ?_⟩, ⟨second, secondRun, ?_⟩⟩
  · rw [identifiers]
    decide
  · rw [names]
    decide

end Bindery
