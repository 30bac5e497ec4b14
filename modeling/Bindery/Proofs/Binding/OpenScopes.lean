import Bindery.Proofs.Binding.Distinct
import Mathlib.Data.List.Zip

/-!
# Scopes that are opened out of turn

What is needed before the traversal comes to it is attached to the scope around it.  The way there
climbs to the first class that is bound, or to the root, and the modules of the namespaces on this
way that have none wait from then on, an outer one before an inner one.  Asked again, everything is
there.  The traversal looks up the same set of names, so a unit makes the module of a name once.
-/

set_option autoImplicit false

namespace Bindery

namespace UnitContext

variable {context : UnitContext} {unit : UnitState}

/-! ## The way up from a scope -/

/-- Whether a scope is a namespace with a module of its own. -/
def ownsModule (context : UnitContext) (id : DeclId) : Bool :=
  (context.tree.decl id).kind == .namespaceDecl && hasModule (context.tree.decl id)

/-- Whether what is inside a scope may be attached to what is around it: the scope is neither the
root nor a bound class. -/
structure Passes (context : UnitContext) (unit : UnitState) (id : DeclId) : Prop where
  notRoot : (context.tree.decl id).kind ≠ .unitRoot
  unbound : (context.tree.decl id).kind.isRecord = true →
    context.boundIdentifier? unit (context.tree.qualifiedName id) = none

/-- The scopes on the way up from one, itself first, to the one that ends the way, and what is
attached to that. -/
inductive Climb (context : UnitContext) (unit : UnitState) :
    Option DeclId → List DeclId → Parent → Prop
  | outside : Climb context unit none [] .global
  | root {id : DeclId} (isRoot : (context.tree.decl id).kind = .unitRoot) :
      Climb context unit (some id) [id] .global
  | bound {id : DeclId} {identifier : String}
      (isClass : (context.tree.decl id).kind.isRecord = true)
      (known : context.boundIdentifier? unit (context.tree.qualifiedName id) = some identifier) :
      Climb context unit (some id) [id] (.class_ identifier)
  | through {id : DeclId} {way : List DeclId} {top : Parent} (passes : context.Passes unit id)
      (above : Climb context unit (context.tree.semanticParent id) way top) :
      Climb context unit (some id) (id :: way) top

/-- The namespaces with a module of their own among the scopes on a way, the outermost first. -/
def met (context : UnitContext) (way : List DeclId) : List DeclId :=
  (way.filter context.ownsModule).reverse

namespace Climb

variable {scope : Option DeclId} {way : List DeclId} {top : Parent}

theorem unique {other : List DeclId} {last : Parent} (climb : context.Climb unit scope way top)
    (again : context.Climb unit scope other last) : other = way ∧ last = top := by
  induction climb generalizing other last with
  | outside =>
      cases again
      exact ⟨rfl, rfl⟩
  | root isRoot =>
      cases again with
      | root => exact ⟨rfl, rfl⟩
      | bound isClass => simp [isRoot, DeclKind.isRecord] at isClass
      | through passes => exact absurd isRoot passes.notRoot
  | bound isClass known =>
      cases again with
      | root isRoot => simp [isRoot, DeclKind.isRecord] at isClass
      | bound _ same => exact ⟨rfl, congrArg Parent.class_ (Option.some.inj (same.symm.trans known))⟩
      | through passes => rw [passes.unbound isClass] at known; cases known
  | through passes _ ih =>
      cases again with
      | root isRoot => exact absurd isRoot passes.notRoot
      | bound isClass known => rw [passes.unbound isClass] at known; cases known
      | through _ above =>
          obtain ⟨rfl, rfl⟩ := ih above
          exact ⟨rfl, rfl⟩

/-- From each scope on a way the rest of the way leads up. -/
theorem exists_of_mem (climb : context.Climb unit scope way top) {id : DeclId}
    (member : id ∈ way) :
    ∃ rest, context.Climb unit (some id) rest top ∧ rest.length ≤ way.length := by
  induction climb with
  | outside => cases member
  | root isRoot =>
      obtain rfl := List.mem_singleton.mp member
      exact ⟨[id], .root isRoot, Nat.le_refl _⟩
  | bound isClass known =>
      obtain rfl := List.mem_singleton.mp member
      exact ⟨[id], .bound isClass known, Nat.le_refl _⟩
  | @through first way top passes above ih =>
      rcases List.mem_cons.mp member with rfl | later
      · exact ⟨id :: way, .through passes above, Nat.le_refl _⟩
      · obtain ⟨rest, climb, shorter⟩ := ih later
        exact ⟨rest, climb, Nat.le_succ_of_le shorter⟩

/-- No scope is on the way up twice, for from there it would go on for ever. -/
theorem nodup (climb : context.Climb unit scope way top) : way.Nodup := by
  induction climb with
  | outside => exact List.nodup_nil
  | root => exact List.nodup_singleton _
  | bound => exact List.nodup_singleton _
  | @through id way top passes above ih =>
      refine List.nodup_cons.mpr ⟨fun again => ?_, ih⟩
      obtain ⟨rest, climb, shorter⟩ := above.exists_of_mem again
      obtain ⟨rfl, -⟩ := (Climb.through passes above).unique climb
      exact absurd shorter (Nat.not_succ_le_self way.length)

/-- A scope that is not the last on the way has a scope around it. -/
theorem lt_size_of_mem_dropLast (climb : context.Climb unit scope way top) :
    ∀ id ∈ way.dropLast, id < context.tree.size := by
  induction climb with
  | outside => exact List.forall_mem_nil _
  | root => exact List.forall_mem_nil _
  | bound => exact List.forall_mem_nil _
  | @through id way top passes above ih =>
      cases way with
      | nil => exact List.forall_mem_nil _
      | cons next later =>
          rw [List.dropLast_cons_cons]
          refine List.forall_mem_cons.mpr ⟨?_, ih⟩
          cases inside : context.tree.semanticParent id with
          | none =>
              rw [inside] at above
              cases above
          | some around => exact DeclTree.lt_size_of_semanticParent inside

/-- As many steps as `ensureScope` has are enough for every way up. -/
theorem length_le (climb : context.Climb unit scope way top) :
    way.length ≤ context.tree.size + 1 := by
  have distinct : way.dropLast.Nodup := climb.nodup.sublist (List.dropLast_sublist way)
  have within : way.dropLast ⊆ List.range context.tree.size := fun id member =>
    List.mem_range.mpr (climb.lt_size_of_mem_dropLast id member)
  have few := (distinct.subperm within).length_le
  rw [List.length_dropLast, List.length_range] at few
  omega

end Climb

/-! ## Opening the namespaces on the way -/

/-- Enters a namespace from the parent reached so far; its module waits unless there is one. -/
def enter (context : UnitContext) (reached : Parent × UnitState) (id : DeclId) :
    Parent × UnitState :=
  (.module_ (context.moduleIdentifier id),
    if context.tree.qualifiedName id ∈ reached.2.namespaces then reached.2
    else
      (reached.2.openModule (context.tree.qualifiedName id) (context.moduleIdentifier id)).enqueue
        (context.moduleOf id reached.1))

theorem met_cons (id : DeclId) (way : List DeclId) :
    context.met (id :: way) =
      context.met way ++ if context.ownsModule id then [id] else [] := by
  rw [met, List.filter_cons]
  split
  · rw [List.reverse_cons, met]
  · rw [List.append_nil, met]

theorem run_enterNamespace {id : DeclId} {outer : Parent} {progress : Progress} :
    (do
      if let some fragment ← context.openNamespace id outer then
        Gen.enqueue fragment
      return .module_ (context.moduleIdentifier id) : Gen Parent).run progress =
      some ((context.enter (outer, progress.unit) id).1,
        progress.withUnit (context.enter (outer, progress.unit) id).2) := by
  unfold openNamespace enter
  by_cases isOpen : context.tree.qualifiedName id ∈ progress.unit.namespaces
  · simp [isOpen, Progress.withUnit]
  · simp [isOpen, Progress.withUnit, moduleOf, UnitState.enqueue]

/-- What is inside a class looks for the class, then for what is around it. -/
theorem ensureScopeTo_class {depth : Nat} {id : DeclId}
    (isClass : (context.tree.decl id).kind.isRecord = true) :
    context.ensureScopeTo (depth + 1) (some id) = (do
      match context.boundIdentifier? (← Gen.unit) (context.tree.qualifiedName id) with
      | some identifier => return .class_ identifier
      | none => context.ensureScopeTo depth (context.tree.semanticParent id)) := by
  rw [ensureScopeTo]
  dsimp only
  split
  case h_1 kind => simp [kind, DeclKind.isRecord] at isClass
  case h_2 kind => simp [kind, DeclKind.isRecord] at isClass
  case h_6 notClass notStruct notUnion =>
    cases kind : (context.tree.decl id).kind <;> simp_all [DeclKind.isRecord]
  all_goals rfl

/-- What is inside a scope of another kind looks on around it. -/
theorem ensureScopeTo_other {depth : Nat} {id : DeclId}
    (notRoot : (context.tree.decl id).kind ≠ .unitRoot)
    (notClass : (context.tree.decl id).kind.isRecord = false)
    (noModule : context.ownsModule id = false) {progress : Progress} :
    (context.ensureScopeTo (depth + 1) (some id)).run progress =
      (context.ensureScopeTo depth (context.tree.semanticParent id)).run progress := by
  rw [ensureScopeTo]
  dsimp only
  split
  case h_1 kind => exact absurd kind notRoot
  case h_2 kind =>
    simp [ownsModule, kind] at noModule
    simp [noModule]
  case h_6 => rfl
  all_goals
    rename_i kind
    simp [kind, DeclKind.isRecord] at notClass

theorem Climb.run_ensureScopeTo {scope : Option DeclId} {way : List DeclId} {top : Parent}
    {progress : Progress} (climb : context.Climb progress.unit scope way top) {depth : Nat}
    (enough : way.length ≤ depth) :
    (context.ensureScopeTo depth scope).run progress =
      some (((context.met way).foldl context.enter (top, progress.unit)).1,
        progress.withUnit ((context.met way).foldl context.enter (top, progress.unit)).2) := by
  induction climb generalizing depth with
  | outside => cases depth <;> rfl
  | @root id isRoot =>
      cases depth with
      | zero => cases enough
      | succ depth => simp [ensureScopeTo, isRoot, met, ownsModule, Progress.withUnit]
  | @bound id identifier isClass known =>
      cases depth with
      | zero => cases enough
      | succ depth =>
          have noModule : context.ownsModule id = false := by
            cases kind : (context.tree.decl id).kind <;>
              simp_all [ownsModule, DeclKind.isRecord]
          rw [ensureScopeTo_class isClass]
          simp [known, met, noModule, Progress.withUnit]
  | @through id way top passes above ih =>
      cases depth with
      | zero => cases enough
      | succ depth =>
          have outer := ih (Nat.le_of_succ_le_succ enough)
          rw [met_cons, List.foldl_append]
          cases owns : context.ownsModule id with
          | true =>
              obtain ⟨isNamespace, hasName⟩ := Bool.and_eq_true_iff.mp owns
              rw [ensureScopeTo]
              simp only [eq_of_beq isNamespace, hasName, if_true]
              rw [Gen.run_bind_of_eq_some outer]
              exact run_enterNamespace
          | false =>
              cases isClass : (context.tree.decl id).kind.isRecord with
              | true =>
                  rw [ensureScopeTo_class isClass]
                  simp [passes.unbound isClass, outer]
              | false =>
                  rw [ensureScopeTo_other passes.notRoot isClass owns, outer]
                  rfl

/-! ## The modules that were missing -/

/-- The given namespaces, the outermost first, whose qualified name is not among some names, each
once and with what its module is attached to: what is around the first, and for each other the
module of the one before it. -/
def missing (context : UnitContext) : List String → Parent → List DeclId → List (DeclId × Parent)
  | _, _, [] => []
  | names, outer, id :: inner =>
      if context.tree.qualifiedName id ∈ names then
        context.missing names (.module_ (context.moduleIdentifier id)) inner
      else
        (id, outer) :: context.missing (names ++ [context.tree.qualifiedName id])
          (.module_ (context.moduleIdentifier id)) inner

/-- What is attached to the innermost of some namespaces, or to what is around them. -/
def attached (context : UnitContext) (outer : Parent) (namespaces : List DeclId) : Parent :=
  (namespaces.map fun id => Parent.module_ (context.moduleIdentifier id)).getLastD outer

/-- A state after the modules of some namespaces were opened, one after the other. -/
def openAll (context : UnitContext) (unit : UnitState) (opened : List (DeclId × Parent)) :
    UnitState :=
  { unit with
    namespaces := unit.namespaces ++ opened.map fun pair => context.tree.qualifiedName pair.1
    bindings := opened.foldl (fun bindings pair =>
      assign (context.moduleIdentifier pair.1) (context.tree.qualifiedName pair.1) bindings)
      unit.bindings
    pending := unit.pending ++ opened.map fun pair => context.moduleOf pair.1 pair.2 }

theorem openAll_nil : context.openAll unit [] = unit := by
  simp [openAll]

theorem foldl_enter (outer : Parent) (namespaces : List DeclId) :
    namespaces.foldl context.enter (outer, unit) =
      (context.attached outer namespaces,
        context.openAll unit (context.missing unit.namespaces outer namespaces)) := by
  induction namespaces generalizing outer unit with
  | nil => rw [missing, openAll_nil]; rfl
  | cons id inner ih =>
      have innermost : context.attached outer (id :: inner) =
          context.attached (.module_ (context.moduleIdentifier id)) inner := by
        rw [attached, List.map_cons, List.getLastD_cons]
        rfl
      rw [List.foldl_cons, enter, missing, innermost]
      dsimp only
      split
      · exact ih _
      · rw [ih]
        simp [openAll, UnitState.openModule, UnitState.enqueue]

theorem missing_sublist (names : List String) (outer : Parent) (namespaces : List DeclId) :
    (context.missing names outer namespaces).Sublist (namespaces.zip
      (outer :: namespaces.map fun id => .module_ (context.moduleIdentifier id))) := by
  induction namespaces generalizing names outer with
  | nil => exact .slnil
  | cons id inner ih =>
      rw [missing, List.map_cons, List.zip_cons_cons]
      split
      · exact (ih _ _).cons _
      · exact (ih _ _).cons_cons _

theorem nodup_missing (names : List String) (outer : Parent) (namespaces : List DeclId) :
    ((context.missing names outer namespaces).map
        fun pair => context.tree.qualifiedName pair.1).Nodup ∧
      ∀ pair ∈ context.missing names outer namespaces,
        context.tree.qualifiedName pair.1 ∉ names := by
  induction namespaces generalizing names outer with
  | nil => exact ⟨List.nodup_nil, List.forall_mem_nil _⟩
  | cons id inner ih =>
      rw [missing]
      split
      · exact ih _ _
      · rename_i new
        obtain ⟨distinct, apart⟩ := ih (names ++ [context.tree.qualifiedName id])
          (.module_ (context.moduleIdentifier id))
        refine ⟨?_, List.forall_mem_cons.mpr ⟨new, fun pair member => ?_⟩⟩
        · rw [List.map_cons, List.nodup_cons]
          refine ⟨fun again => ?_, distinct⟩
          obtain ⟨pair, member, same⟩ := List.mem_map.mp again
          exact apart pair member (by simp [same])
        · exact fun known => apart pair member (List.mem_append_left _ known)

/-- Of each name that is not known yet one module is opened. -/
theorem mem_missing_iff {names : List String} {outer : Parent} {namespaces : List DeclId}
    {id : DeclId} (member : id ∈ namespaces) :
    context.tree.qualifiedName id ∉ names ↔
      context.tree.qualifiedName id ∈ (context.missing names outer namespaces).map
        fun pair => context.tree.qualifiedName pair.1 := by
  constructor
  · intro new
    induction namespaces generalizing names outer with
    | nil => cases member
    | cons first inner ih =>
        rw [missing]
        rcases List.mem_cons.mp member with rfl | later
        · rw [if_neg new]
          exact List.mem_cons_self
        · split
          · exact ih later new
          · by_cases same : context.tree.qualifiedName id = context.tree.qualifiedName first
            · rw [same]
              exact List.mem_cons_self
            · exact List.mem_cons_of_mem _ (ih later (by simp [new, same]))
  · intro opened
    obtain ⟨pair, isOpened, same⟩ := List.mem_map.mp opened
    exact same ▸ (nodup_missing names outer namespaces).2 pair isOpened

theorem missing_eq_nil {names : List String} {outer : Parent} {namespaces : List DeclId}
    (known : ∀ id ∈ namespaces, context.tree.qualifiedName id ∈ names) :
    context.missing names outer namespaces = [] := by
  induction namespaces generalizing outer with
  | nil => rfl
  | cons id inner ih =>
      obtain ⟨here, later⟩ := List.forall_mem_cons.mp known
      rw [missing, if_pos here, ih later]

/-- Afterwards all of the namespaces have a module. -/
theorem mem_namespaces_openAll {outer : Parent} {namespaces : List DeclId} {id : DeclId}
    (member : id ∈ namespaces) :
    context.tree.qualifiedName id ∈
      (context.openAll unit (context.missing unit.namespaces outer namespaces)).namespaces := by
  by_cases known : context.tree.qualifiedName id ∈ unit.namespaces
  · exact List.mem_append_left _ known
  · exact List.mem_append_right _ ((mem_missing_iff member).mp known)

/-! ## Asking for a scope -/

section

variable {scope : Option DeclId} {way : List DeclId} {top : Parent}

/-- The way up does not depend on which namespaces are open. -/
theorem Climb.congr {after : UnitState} (climb : context.Climb unit scope way top)
    (byType : after.byType = unit.byType) : context.Climb after scope way top := by
  have same (cppType : String) :
      context.boundIdentifier? after cppType = context.boundIdentifier? unit cppType := by
    rw [boundIdentifier?, UnitState.identifierFor?, byType]
    rfl
  induction climb with
  | outside => exact .outside
  | root isRoot => exact .root isRoot
  | bound isClass known => exact .bound isClass ((same _).trans known)
  | through passes _ ih =>
      exact .through ⟨passes.notRoot, fun isClass => (same _).trans (passes.unbound isClass)⟩ ih

theorem Climb.run_ensureScope {progress : Progress}
    (climb : context.Climb progress.unit scope way top) :
    (context.ensureScope scope).run progress =
      some (context.attached top (context.met way), progress.withUnit
        (context.openAll progress.unit
          (context.missing progress.unit.namespaces top (context.met way)))) := by
  rw [ensureScope, climb.run_ensureScopeTo climb.length_le, foldl_enter]

theorem Climb.run_ensureScope_again {progress : Progress}
    (climb : context.Climb progress.unit scope way top) :
    (context.ensureScope scope).run (progress.withUnit (context.openAll progress.unit
        (context.missing progress.unit.namespaces top (context.met way)))) =
      some (context.attached top (context.met way), progress.withUnit
        (context.openAll progress.unit
          (context.missing progress.unit.namespaces top (context.met way)))) := by
  generalize opens : context.openAll progress.unit
    (context.missing progress.unit.namespaces top (context.met way)) = after
  have again : context.Climb (progress.withUnit after).unit scope way top := by
    subst opens
    exact climb.congr rfl
  have nothing : context.missing (progress.withUnit after).unit.namespaces top
      (context.met way) = [] := by
    subst opens
    exact missing_eq_nil fun _ => mem_namespaces_openAll
  rw [again.run_ensureScope, nothing, openAll_nil]
  rfl

/-- A scope is answered for only where the way up from it ends. -/
theorem exists_climb_of_run {depth : Nat} {parent : Parent} {before after : Progress}
    (run : (context.ensureScopeTo depth scope).run before = some (parent, after)) :
    ∃ way top, context.Climb before.unit scope way top := by
  induction depth generalizing scope parent after with
  | zero =>
      cases scope with
      | none => exact ⟨[], .global, .outside⟩
      | some id => cases run
  | succ depth ih =>
      cases scope with
      | none => exact ⟨[], .global, .outside⟩
      | some id =>
          by_cases isRoot : (context.tree.decl id).kind = .unitRoot
          · exact ⟨[id], .global, .root isRoot⟩
          have further {parent : Parent} {after : Progress} (passes : context.Passes before.unit id)
              (run : (context.ensureScopeTo depth (context.tree.semanticParent id)).run before =
                some (parent, after)) :
              ∃ way top, context.Climb before.unit (some id) way top := by
            obtain ⟨way, top, above⟩ := ih run
            exact ⟨id :: way, top, .through passes above⟩
          cases isClass : (context.tree.decl id).kind.isRecord with
          | true =>
              rw [ensureScopeTo_class isClass, Gen.run_bind_of_eq_some (Gen.run_unit before)] at run
              cases known : context.boundIdentifier? before.unit (context.tree.qualifiedName id) with
              | some identifier => exact ⟨[id], .class_ identifier, .bound isClass known⟩
              | none =>
                  rw [known] at run
                  exact further ⟨isRoot, fun _ => known⟩ run
          | false =>
              have passes : context.Passes before.unit id :=
                ⟨isRoot, fun same => by rw [isClass] at same; cases same⟩
              cases owns : context.ownsModule id with
              | false =>
                  rw [ensureScopeTo_other isRoot isClass owns] at run
                  exact further passes run
              | true =>
                  obtain ⟨isNamespace, -⟩ := Bool.and_eq_true_iff.mp owns
                  rw [ensureScopeTo] at run
                  simp only [eq_of_beq isNamespace] at run
                  obtain ⟨_, _, outerRun, -⟩ := Gen.run_bind_eq_some run
                  exact further passes outerRun

end

end UnitContext

/-- Scopes are opened outermost first and only once.  A scope that is asked for is answered exactly
where the way up from it ends.  Then for each qualified name that has no module yet among those of
the namespaces on this way, one module waits from then on: an outer one before an inner one, each
attached to the next namespace around it, the outermost to what the way ends at; nothing else
changes, and if the same is asked again there is the same answer and nothing changes at all.  And
the modules of a whole unit are those of the names that it has opened, no two of which are the
same. -/
theorem scopes_open_once :
    (∀ (context : UnitContext) (progress : Progress) (scope : DeclId),
      ((∃ answer, (context.ensureScope (some scope)).run progress = some answer) ↔
        ∃ way top, context.Climb progress.unit (some scope) way top) ∧
      ∀ way top, context.Climb progress.unit (some scope) way top →
        ∃ opened : List (DeclId × Parent),
          (context.ensureScope (some scope)).run progress =
            some (context.attached top (context.met way),
              progress.withUnit (context.openAll progress.unit opened)) ∧
          opened.Sublist ((context.met way).zip
            (top :: (context.met way).map fun id => .module_ (context.moduleIdentifier id))) ∧
          (opened.map fun pair => context.tree.qualifiedName pair.1).Nodup ∧
          (∀ id ∈ context.met way,
            context.tree.qualifiedName id ∉ progress.unit.namespaces ↔
              context.tree.qualifiedName id ∈
                opened.map fun pair => context.tree.qualifiedName pair.1) ∧
          (context.ensureScope (some scope)).run
              (progress.withUnit (context.openAll progress.unit opened)) =
            some (context.attached top (context.met way),
              progress.withUnit (context.openAll progress.unit opened))) ∧
    ∀ depth options index unit relative result,
      generateUnit depth options index unit relative = some result →
      ∃ progress,
        (UnitContext.ofUnit depth unit options index relative).visitUnit.run
          ⟨UnitState.empty, []⟩ = some (result.bindings.fragments, progress) ∧
        progress.unit.namespaces.Nodup ∧
        (∀ qualified ∈ progress.unit.namespaces, ∃ id,
          (unit.tree.decl id).kind = .namespaceDecl ∧ unit.tree.qualifiedName id = qualified) ∧
        (Fragment.allModules result.bindings.fragments).Perm
          (progress.unit.namespaces.map Name.moduleIdentifier) := by
  constructor
  · intro context progress scope
    constructor
    · constructor
      · rintro ⟨answer, run⟩
        exact UnitContext.exists_climb_of_run run
      · rintro ⟨way, top, climb⟩
        exact ⟨_, climb.run_ensureScope⟩
    · intro way top climb
      exact ⟨context.missing progress.unit.namespaces top (context.met way), climb.run_ensureScope,
        UnitContext.missing_sublist _ _ _, (UnitContext.nodup_missing _ _ _).1,
        fun _ => UnitContext.mem_missing_iff, climb.run_ensureScope_again⟩
  · intro depth options index unit relative result run
    obtain ⟨progress, visitRun, -⟩ := bindings_of_generateUnit run
    obtain ⟨accountable, -⟩ := UnitContext.visitUnit_made visitRun
    obtain ⟨distinct, modules⟩ := opened_of_visitUnit visitRun
    exact ⟨progress, visitRun, distinct, accountable.namespaces, modules⟩

/-- A namespace that is opened twice, with an inline namespace and another one inside, where a
class template is. -/
def reopenedUnit : SourceUnit :=
  .ofSteps
    [.add 0 .namespaceDecl "geo",
     .inlineNamespace 1 "v1",
     .add 2 .namespaceDecl "detail",
     .classTemplate 3 "Box" ["T"],
     .add 0 .namespaceDecl "geo"]

/-- What is fixed while the unit is traversed. -/
def reopenedContext : UnitContext :=
  .ofUnit 1 reopenedUnit .plain .empty "unit.hpp"

theorem detail_climb :
    reopenedContext.Climb UnitState.empty (some 3) [3, 2, 1, 0] .global := by
  have passes (id : DeclId) (isNamespace : (reopenedContext.tree.decl id).kind = .namespaceDecl) :
      reopenedContext.Passes UnitState.empty id :=
    ⟨by simp [isNamespace], by simp [isNamespace, DeclKind.isRecord]⟩
  have inside (id around : DeclId) {way : List DeclId}
      (scope : reopenedContext.tree.semanticParent id = some around)
      (climb : reopenedContext.Climb UnitState.empty (some around) way .global) :
      reopenedContext.Climb UnitState.empty (reopenedContext.tree.semanticParent id) way .global :=
    scope ▸ climb
  have top : reopenedContext.Climb UnitState.empty (some 0) [0] .global :=
    .root (by decide +kernel)
  have outer : reopenedContext.Climb UnitState.empty (some 1) [1, 0] .global :=
    .through (passes 1 (by decide +kernel)) (inside 1 0 (by decide +kernel) top)
  have between : reopenedContext.Climb UnitState.empty (some 2) [2, 1, 0] .global :=
    .through (passes 2 (by decide +kernel)) (inside 2 1 (by decide +kernel) outer)
  exact .through (passes 3 (by decide +kernel)) (inside 3 2 (by decide +kernel) between)

/-- The scope of the class template opens two modules, and the unit as a whole has no more. -/
theorem reopened_scopes_open_once :
    (∃ opened : List (DeclId × Parent),
      (reopenedContext.ensureScope (some 3)).run ⟨UnitState.empty, []⟩ =
        some (.module_ "rb_mGeoDetail", ⟨reopenedContext.openAll UnitState.empty opened, []⟩) ∧
      opened.Sublist [(1, .global), (3, .module_ "rb_mGeo")] ∧
      ∀ id ∈ [1, 3], reopenedContext.tree.qualifiedName id ∈
        opened.map fun pair => reopenedContext.tree.qualifiedName pair.1) ∧
    ∃ result, ∃ progress : Progress,
      generateUnit 1 .plain .empty reopenedUnit "unit.hpp" = some result ∧
      progress.unit.namespaces.Nodup ∧
      ["rb_mGeo", "rb_mGeoDetail"].Perm
        (progress.unit.namespaces.map Name.moduleIdentifier) := by
  constructor
  · have met : reopenedContext.met [3, 2, 1, 0] = [1, 3] := by decide +kernel
    have pairs : ([1, 3] : List DeclId).zip (.global :: ([1, 3] : List DeclId).map fun id =>
        Parent.module_ (reopenedContext.moduleIdentifier id)) =
          [(1, .global), (3, .module_ "rb_mGeo")] := by
      decide +kernel
    have attached : reopenedContext.attached .global [1, 3] = .module_ "rb_mGeoDetail" := by
      decide +kernel
    obtain ⟨opened, run, sublist, -, missing, -⟩ :=
      (scopes_open_once.1 reopenedContext ⟨UnitState.empty, []⟩ 3).2 _ _ detail_climb
    rw [met, attached] at run
    rw [met, pairs] at sublist
    rw [met] at missing
    exact ⟨opened, run, sublist, fun id member => (missing id member).mp List.not_mem_nil⟩
  · have modules : (generateUnit 1 .plain .empty reopenedUnit "unit.hpp").map (fun result =>
        Fragment.allModules result.bindings.fragments) = some ["rb_mGeo", "rb_mGeoDetail"] := by
      decide +kernel
    obtain ⟨result, run, identifiers⟩ := Option.map_eq_some_iff.mp modules
    obtain ⟨progress, -, distinct, -, perm⟩ := scopes_open_once.2 _ _ _ _ _ _ run
    exact ⟨result, progress, run, distinct, identifiers ▸ perm⟩

/-- A class with a namespace inside. -/
def namespaceInClassContext : UnitContext :=
  .ofUnit 1 (.ofSteps [.add 0 .classDecl "A", .add 1 .namespaceDecl "n"]) .plain .empty "unit.hpp"

/-- The state in which the class is bound. -/
def boundClassState : UnitState :=
  { UnitState.empty with byType := [("A", "rb_cA")], bindings := [("rb_cA", "A")] }

/-- The namespace has none around it, but its module is attached to the class. -/
theorem namespace_in_class_is_attached_to_class :
    UnitState.empty.register? "rb_cA" "A" = some boundClassState ∧
      namespaceInClassContext.met [2, 1] = [2] ∧
      ((namespaceInClassContext.ensureScope (some 2)).run ⟨boundClassState, []⟩).map
        (fun answer => answer.2.unit.pending.map (·.parent)) = some [.class_ "rb_cA"] ∧
      (Parent.class_ "rb_cA") ≠ .global := by
  decide +kernel

end Bindery
