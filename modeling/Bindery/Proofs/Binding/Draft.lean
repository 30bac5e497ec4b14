import Bindery.Binding.Generator
import Bindery.Proofs.Binding.Run
import Mathlib.Logic.Relation

/-!
# Drafts of a unit

A draft is a unit in the making: the fragments that have found their place, the bindings that are
registered while their fragment is still to come, what that fragment will be attached to, the C++
type whose base it needs, the instantiations that are being made for that, and the progress of
generation.  `Step` says once what generation can do to a draft; whatever holds
of every unit is shown for one step.
-/

set_option autoImplicit false

namespace Bindery

namespace Fragment

/-- A fragment that defines no identifier. -/
def IsLoose (fragment : Fragment) : Prop :=
  fragment.identifier? = none

/-- The C++ type that a fragment is there for. -/
def cppType? : Fragment → Option String
  | class_ binding => some binding.cppType
  | enum _ _ cppType _ _ => some cppType
  | instantiation _ _ cppType _ _ _ => some cppType
  | _ => none

/-- The C++ type that a class or an instantiation binds and the base declared for it. -/
def derivation? : Fragment → Option (String × String)
  | class_ binding => binding.base.map fun base => (binding.cppType, base)
  | instantiation _ _ cppType base _ _ => base.map fun base => (cppType, base)
  | _ => none

/-- The C++ types that fragments bind, each with its identifier. -/
def allBound (fragments : List Fragment) : List (String × String) :=
  fragments.flatMap boundTypes

end Fragment

/-! ## Bases of C++ types -/

namespace UnitContext

variable (context : UnitContext)

/-- Whether a spelling stands for an instantiation of a template: as a base, as what a typedef
names, or as the type of a parameter or result. -/
def Spells (template : DeclId) (args : List String) (cppType : String) : Prop :=
  (∃ id params values,
    context.speller.resolveBase? id params values = some (.instantiation template cppType args)) ∨
  (∃ id, context.namedInstantiation? id = some (template, cppType, args)) ∨
  (∃ type, context.unnamedInstantiation? type = some (template, cppType, args))

/-- Whether a C++ type has a base: as a class, or as an instantiation. -/
def HasBase (cppType : String) (base : BaseClass) : Prop :=
  (∃ id, (context.tree.decl id).kind.isRecord ∧ context.tree.qualifiedName id = cppType ∧
    context.speller.resolveBase? id [] [] = some base) ∨
  (∃ template args, context.Spells template args cppType ∧
    context.speller.instantiateBase? template args = some base)

/-- Whether a C++ type has an instantiation of a template outside the standard library as base. -/
def DerivesFrom (cppType base : String) : Prop :=
  ∃ template args, context.HasBase cppType (.instantiation template base args) ∧
    context.tree.isStd template = false

/-- Whether a C++ type has a base that is taken over as it is written. -/
def HasPlainBase (cppType base : String) : Prop :=
  ∃ decl, context.HasBase cppType (.plain base decl)

/-- What is known of the base declared for a C++ type: it is taken over as it is written, or it is
an instantiation that counts as bound. -/
def BaseFound (unit : UnitState) (cppType : String) (base : Option String) : Prop :=
  ∀ spelling ∈ base, context.HasPlainBase cppType spelling ∨ context.isBound unit spelling = true

/-- Whether something may be attached to a parent: its namespace is open, or its identifier is bound
here or in an earlier unit. -/
def KnownScope (unit : UnitState) : Parent → Prop
  | .global => True
  | .module_ identifier =>
      ∃ qualified ∈ unit.namespaces, identifier = Name.moduleIdentifier qualified
  | .class_ identifier =>
      (∃ cppType, unit.identifierFor? cppType = some identifier) ∨
        ∃ cppType, context.index.knownClass? cppType = some identifier

end UnitContext

/-! ## Drafts -/

/-- A unit in the making. -/
structure Draft where
  placed : List Fragment
  promised : List (String × String)
  home : Parent
  owner : Option String
  seeking : List String
  progress : Progress

namespace Draft

/-- The draft before the first declaration. -/
def start : Draft :=
  ⟨[], [], .global, none, [], ⟨UnitState.empty, []⟩⟩

/-- The state of the unit. -/
def unit (draft : Draft) : UnitState :=
  draft.progress.unit

/-- The C++ types whose bases are being looked for, the innermost first. -/
def asking (draft : Draft) : List String :=
  draft.seeking ++ draft.owner.toList

/-- The fragments made so far, those that wait behind those that have their place. -/
def fragments (draft : Draft) : List Fragment :=
  draft.placed ++ draft.unit.pending

/-- The draft with other progress. -/
def advance (draft : Draft) (progress : Progress) : Draft :=
  { draft with progress }

/-- The draft with another state. -/
def change (draft : Draft) (unit : UnitState) : Draft :=
  draft.advance (draft.progress.withUnit unit)

/-- The draft in which the waiting fragments and then the given ones have found their place. -/
def place (draft : Draft) (fragments : List Fragment) : Draft :=
  { draft with
    placed := draft.fragments ++ fragments
    progress := draft.progress.release }

/-- The draft with other progress and more fragments that have found their place. -/
def append (draft : Draft) (progress : Progress) (fragments : List Fragment) : Draft :=
  { draft.advance progress with placed := draft.placed ++ fragments }

theorem append_append (draft : Draft) (first second : Progress) (left right : List Fragment) :
    (draft.append first left).append second right = draft.append second (left ++ right) := by
  rw [append, append, append, List.append_assoc]
  rfl

theorem append_nil (draft : Draft) (progress : Progress) :
    draft.append progress [] = draft.advance progress := by
  rw [append, List.append_nil]
  rfl

theorem advance_place (draft : Draft) (progress : Progress) (fragments : List Fragment) :
    (draft.advance progress).place fragments =
      draft.append progress.release (progress.unit.pending ++ fragments) := by
  rw [append, place, Draft.fragments, List.append_assoc]
  rfl

/-- The draft with other progress and more bindings whose fragment is to come. -/
def promise (draft : Draft) (progress : Progress) (bindings : List (String × String)) : Draft :=
  { draft.advance progress with promised := draft.promised ++ bindings }

theorem promise_promise (draft : Draft) (first second : Progress)
    (left right : List (String × String)) :
    (draft.promise first left).promise second right = draft.promise second (left ++ right) := by
  rw [promise, promise, promise, List.append_assoc]
  rfl

theorem promise_nil (draft : Draft) (progress : Progress) :
    draft.promise progress [] = draft.advance progress := by
  rw [promise, List.append_nil]
  rfl

theorem fragments_place (draft : Draft) (fragments : List Fragment) :
    (draft.place fragments).fragments = draft.fragments ++ fragments :=
  List.append_nil _

/-- Nothing is promised and no base is looked for. -/
structure Idle (draft : Draft) : Prop where
  promised : draft.promised = []
  home : draft.home = .global
  owner : draft.owner = none
  seeking : draft.seeking = []

theorem Idle.asking {draft : Draft} (idle : draft.Idle) : draft.asking = [] := by
  rw [Draft.asking, idle.seeking, idle.owner]
  rfl

/-- Whether a fragment stays in front of the class with the given identifier. -/
def goesBefore (identifier : String) (fragment : Fragment) : Bool :=
  fragment.parent != .class_ identifier

end Draft

open Draft

/-- What one step of generation can do to the draft of a unit. -/
inductive Step (context : UnitContext) : Draft → Draft → Prop
  /-- Neither bindings nor fragments change. -/
  | note {draft : Draft} {progress : Progress} (quiet : draft.progress.Quiet progress) :
      Step context draft (draft.advance progress)
  /-- A namespace is opened, and its module waits. -/
  | openModule {draft : Draft} {outer : Parent} (id : DeclId) (name : String)
      (new : context.tree.qualifiedName id ∉ draft.unit.namespaces)
      (scope : context.KnownScope draft.unit outer) :
      Step context draft (draft.change
        ((draft.unit.openModule (context.tree.qualifiedName id)
          (context.moduleIdentifier id)).enqueue
          (.module_ (context.moduleIdentifier id) name outer)))
  /-- An instantiation is to be made, for the sake of the innermost type whose base is looked
  for. -/
  | begin {draft : Draft} {cppType : String}
      (unbound : context.isBound draft.unit cppType = false)
      (derives : ∀ own ∈ draft.asking.head?, context.DerivesFrom own cppType) :
      Step context draft
        { draft.change (draft.unit.markGenerated cppType) with
          seeking := cppType :: draft.seeking }
  /-- The innermost instantiation is bound, and its fragment waits. -/
  | finish {draft : Draft} {cppType : String} {outer : List String} {unit : UnitState}
      {base : Option String} {parent : Parent} (qualified name : String)
      (builder : Option BuilderCall) (seeking : draft.seeking = cppType :: outer)
      (registered :
        draft.unit.register? (Name.classIdentifier qualified) cppType = some unit)
      (found : context.BaseFound draft.unit cppType base)
      (scope : context.KnownScope draft.unit parent) :
      Step context draft
        { draft.change (unit.enqueue
            (.instantiation (Name.classIdentifier qualified) name cppType base parent builder)) with
          seeking := outer }
  /-- The innermost instantiation cannot be bound. -/
  | refuse {draft : Draft} {cppType : String} {outer : List String} (qualified : String)
      (seeking : draft.seeking = cppType :: outer)
      (taken : draft.unit.register? (Name.classIdentifier qualified) cppType = none) :
      Step context draft
        { draft.advance (draft.progress.report
            (Gen.collisionEvents draft.unit (Name.classIdentifier qualified) cppType)) with
          seeking := outer }
  /-- A class is registered, and its base is looked for. -/
  | promiseClass {draft : Draft} {parent : Parent} {unit : UnitState} (id : DeclId)
      (idle : draft.Idle) (empty : draft.unit.pending = [])
      (scope : context.KnownScope draft.unit parent)
      (record : (context.tree.decl id).kind.isRecord)
      (registered : draft.unit.register? (Name.classIdentifier (context.tree.qualifiedName id))
        (context.tree.qualifiedName id) = some unit) :
      Step context draft
        { draft.change unit with
          promised := [(context.tree.qualifiedName id,
            Name.classIdentifier (context.tree.qualifiedName id))]
          home := parent
          owner := some (context.tree.qualifiedName id)
          seeking := [] }
  /-- The base of the class has been looked for. -/
  | settle {draft : Draft} (id : DeclId) (record : (context.tree.decl id).kind.isRecord)
      (owner : draft.owner = some (context.tree.qualifiedName id))
      (seeking : draft.seeking = []) :
      Step context draft { draft with owner := none }
  /-- An opaque class is registered. -/
  | promiseOpaque {draft : Draft} {unit : UnitState} (id : DeclId) (settled : draft.asking = [])
      (record : (context.tree.decl id).kind.isRecord)
      (registered : draft.unit.register? (Name.classIdentifier (context.tree.qualifiedName id))
        (context.tree.qualifiedName id) = some unit) :
      Step context draft
        { draft.change unit with
          promised := draft.promised ++ [(context.tree.qualifiedName id,
            Name.classIdentifier (context.tree.qualifiedName id))] }
  /-- The class finds its place, in front of the first fragment that is attached to it. -/
  | placeClass {draft : Draft} (binding : ClassBinding) (settled : draft.asking = [])
      (fulfilled : (Fragment.class_ binding).boundTypes = draft.promised)
      (found : context.BaseFound draft.unit binding.cppType binding.base)
      (home : binding.parent = draft.home) :
      Step context draft
        ⟨draft.placed ++ draft.unit.pending.takeWhile (goesBefore binding.identifier)
            ++ .class_ binding :: draft.unit.pending.dropWhile (goesBefore binding.identifier),
          [], .global, none, [], draft.progress.release⟩
  /-- The instantiation that a typedef names is registered, and its base is looked for. -/
  | promiseTypedef {draft : Draft} {cppType : String} {parent : Parent} {unit : UnitState}
      (id : DeclId) (idle : draft.Idle) (empty : draft.unit.pending = [])
      (scope : context.KnownScope draft.unit parent)
      (names : ∃ template args, context.namedInstantiation? id = some (template, cppType, args))
      (registered : draft.unit.register? (Name.classIdentifier (context.tree.qualifiedName id))
        cppType = some unit) :
      Step context draft
        { draft.change unit with
          promised := [(cppType, Name.classIdentifier (context.tree.qualifiedName id))]
          home := parent
          owner := some cppType
          seeking := [] }
  /-- The instantiation that a typedef names finds its place behind all that waits. -/
  | placeTypedef {draft : Draft} {cppType identifier : String} {base : Option String}
      (name : String) (builder : Option BuilderCall) (owner : draft.owner = some cppType)
      (seeking : draft.seeking = []) (promised : draft.promised = [(cppType, identifier)])
      (found : context.BaseFound draft.unit cppType base) :
      Step context draft
        { draft.place [.instantiation identifier name cppType base draft.home builder] with
          promised := []
          home := .global
          owner := none }
  /-- An enum is registered and finds its place behind all that waits. -/
  | placeEnum {draft : Draft} {cppType qualified : String} {parent : Parent} {unit : UnitState}
      (name : String) (values : List (String × String)) (idle : draft.Idle)
      (registered :
        draft.unit.register? (Name.classIdentifier qualified) cppType = some unit)
      (scope : context.KnownScope draft.unit parent) :
      Step context draft
        ((draft.change unit).place
          [.enum (Name.classIdentifier qualified) name cppType parent values])
  /-- What waits finds its place, and behind it fragments that define nothing. -/
  | placeLoose {draft : Draft} (fragments : List Fragment) (idle : draft.Idle)
      (loose : ∀ fragment ∈ fragments,
        fragment.IsLoose ∧ context.KnownScope draft.unit fragment.parent) :
      Step context draft (draft.place fragments)

/-- What generation can do to the draft of a unit. -/
abbrev Steps (context : UnitContext) : Draft → Draft → Prop :=
  Relation.ReflTransGen (Step context)

/-! ## Growth -/

section

variable {context : UnitContext}

theorem Step.growsTo {before after : Draft} (step : Step context before after) :
    before.unit.GrowsTo after.unit := by
  cases step with
  | note quiet => exact quiet.growsTo
  | openModule => exact ⟨List.prefix_append _ _, List.prefix_refl _, List.suffix_refl _⟩
  | begin => exact ⟨List.prefix_refl _, List.prefix_refl _, List.suffix_cons _ _⟩
  | finish _ _ _ _ registered =>
      obtain ⟨namespaces, byType, autoGenerated⟩ := UnitState.GrowsTo.of_register registered
      exact ⟨namespaces, byType, autoGenerated⟩
  | refuse => exact .rfl
  | promiseClass _ _ _ _ _ registered => exact .of_register registered
  | settle => exact .rfl
  | promiseOpaque _ _ _ registered => exact .of_register registered
  | placeClass => exact ⟨List.prefix_refl _, List.prefix_refl _, List.suffix_refl _⟩
  | promiseTypedef _ _ _ _ _ registered => exact .of_register registered
  | placeTypedef => exact ⟨List.prefix_refl _, List.prefix_refl _, List.suffix_refl _⟩
  | placeEnum _ _ _ registered =>
      obtain ⟨namespaces, byType, autoGenerated⟩ := UnitState.GrowsTo.of_register registered
      exact ⟨namespaces, byType, autoGenerated⟩
  | placeLoose => exact ⟨List.prefix_refl _, List.prefix_refl _, List.suffix_refl _⟩

theorem Steps.growsTo {before after : Draft} (steps : Steps context before after) :
    before.unit.GrowsTo after.unit := by
  induction steps with
  | refl => exact .rfl
  | tail _ step ih => exact ih.trans step.growsTo

namespace UnitContext

variable {before after : UnitState}

theorem KnownScope.mono {parent : Parent} (known : context.KnownScope before parent)
    (grows : before.GrowsTo after) : context.KnownScope after parent := by
  cases parent with
  | global => trivial
  | module_ identifier =>
      obtain ⟨qualified, member, named⟩ := known
      exact ⟨qualified, grows.namespaces.subset member, named⟩
  | class_ identifier =>
      obtain ⟨cppType, bound⟩ | earlier := known
      · exact .inl ⟨cppType, grows.identifierFor?_eq_some bound⟩
      · exact .inr earlier

theorem isBound_mono {cppType : String} (bound : context.isBound before cppType = true)
    (grows : before.GrowsTo after) : context.isBound after cppType = true := by
  simp only [isBound, boundIdentifier?, Bool.or_eq_true, List.contains_eq_mem, decide_eq_true_eq,
    Option.isSome_or] at bound ⊢
  obtain (named | generated) | here | earlier := bound
  · exact .inl (.inl named)
  · exact .inl (.inr (grows.autoGenerated.subset generated))
  · obtain ⟨identifier, known⟩ := Option.isSome_iff_exists.mp here
    exact .inr (.inl (Option.isSome_of_eq_some (grows.identifierFor?_eq_some known)))
  · exact .inr (.inr earlier)

theorem BaseFound.mono {cppType : String} {base : Option String}
    (found : context.BaseFound before cppType base) (grows : before.GrowsTo after) :
    context.BaseFound after cppType base := by
  intro spelling member
  obtain plain | bound := found spelling member
  · exact .inl plain
  · exact .inr (isBound_mono bound grows)

/-- Between two declarations nothing is promised, looked for or pending, and the parent of the next
is known. -/
structure IsReady (context : UnitContext) (draft : Draft) (parent : Parent) : Prop where
  idle : draft.Idle
  empty : draft.unit.pending = []
  scope : context.KnownScope draft.unit parent

theorem IsReady.advance {draft : Draft} {parent : Parent} {progress : Progress}
    (ready : context.IsReady draft parent) (quiet : draft.progress.Quiet progress) :
    context.IsReady (draft.advance progress) parent :=
  ⟨⟨ready.idle.promised, ready.idle.home, ready.idle.owner, ready.idle.seeking⟩,
    quiet.pending.trans ready.empty, ready.scope.mono quiet.growsTo⟩

end UnitContext

end

end Bindery
