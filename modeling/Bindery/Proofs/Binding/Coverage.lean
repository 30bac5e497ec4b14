import Bindery.Proofs.Binding.Provenance
import Bindery.Proofs.Binding.Walks

/-!
# What is bound

The fragments of a unit are the shares of its declarations.  A share is sound if what it binds comes
of a declaration that a way leads to from the root, through scopes that take part.  Shares are
complete for classes: whatever such a way leads to is bound, unless it or a class around it has lost
its type or its identifier to the share of another declaration.
-/

set_option autoImplicit false

namespace Bindery

namespace DeclKind

def IsClass (kind : DeclKind) : Prop :=
  kind = .classDecl ∨ kind = .structDecl

/-- The scopes that a way may lead through. -/
def IsPassable (kind : DeclKind) : Prop :=
  kind = .namespaceDecl ∨ kind = .linkageSpec ∨ kind.IsClass

instance (kind : DeclKind) : Decidable kind.IsClass :=
  inferInstanceAs (Decidable (_ ∨ _))

instance (kind : DeclKind) : Decidable kind.IsPassable :=
  inferInstanceAs (Decidable (_ ∨ _))

end DeclKind

/-- What one declaration gives to a unit. -/
structure Share where
  id : DeclId
  fragments : List Fragment

namespace UnitContext

/-! ## Ways -/

/-- Whether a declaration stands in the unit's own file and everyone may use it. -/
def IsAvailable (context : UnitContext) (id : DeclId) : Prop :=
  context.tree.isInFile id context.unitFile = true ∧
    (context.tree.decl id).location.inSystemHeader = false ∧
    (context.tree.decl id).access = .isPublic ∧ (context.tree.decl id).has .isDeleted = false

instance (context : UnitContext) (id : DeclId) : Decidable (context.IsAvailable id) :=
  inferInstanceAs (Decidable (_ ∧ _))

/-- Whether a path leads from the root to a declaration: through scopes, all in the unit's own file
and open to everyone, the classes and enums defined, the namespaces and classes with names, and none
of them skipped but for inline namespaces. -/
structure IsWay (context : UnitContext) (path : List DeclId) (id : DeclId) : Prop where
  linked : List.IsChain (fun outer inner => inner ∈ context.tree.children outer)
    (DeclTree.root :: (path ++ [id]))
  scopes : ∀ outer ∈ path, (context.tree.decl outer).kind.IsPassable
  available : ∀ other ∈ path ++ [id], context.IsAvailable other
  defined : ∀ other ∈ path ++ [id], (context.tree.decl other).kind.isRecord = true ∨
    (context.tree.decl other).kind = .enumDecl → (context.tree.decl other).has .isDefinition = true
  named : ∀ other ∈ path ++ [id], (context.tree.decl other).kind = .namespaceDecl ∨
    (context.tree.decl other).kind.IsClass → (context.tree.decl other).anonymous = false
  kept : ∀ other ∈ path ++ [id], (context.tree.decl other).kind = .namespaceDecl ∧
    (context.tree.decl other).has .isInlineNamespace = false ∨
    (context.tree.decl other).kind.IsClass → context.skipRule? other = none

section

variable {context : UnitContext} {path : List DeclId} {id : DeclId}

theorem isWay_iff : context.IsWay path id ↔
    List.IsChain (fun outer inner => inner ∈ context.tree.children outer)
      (DeclTree.root :: (path ++ [id])) ∧
    (∀ outer ∈ path, (context.tree.decl outer).kind.IsPassable) ∧
    ∀ other ∈ path ++ [id], context.IsAvailable other ∧
      ((context.tree.decl other).kind.isRecord = true ∨
        (context.tree.decl other).kind = .enumDecl →
          (context.tree.decl other).has .isDefinition = true) ∧
      ((context.tree.decl other).kind = .namespaceDecl ∨
        (context.tree.decl other).kind.IsClass → (context.tree.decl other).anonymous = false) ∧
      ((context.tree.decl other).kind = .namespaceDecl ∧
          (context.tree.decl other).has .isInlineNamespace = false ∨
        (context.tree.decl other).kind.IsClass → context.skipRule? other = none) :=
  ⟨fun way => ⟨way.linked, way.scopes, fun other member => ⟨way.available other member,
      way.defined other member, way.named other member, way.kept other member⟩⟩,
    fun ⟨linked, scopes, each⟩ => ⟨linked, scopes, fun other member => (each other member).1,
      fun other member => (each other member).2.1, fun other member => (each other member).2.2.1,
      fun other member => (each other member).2.2.2⟩⟩

instance : Decidable (context.IsWay path id) :=
  decidable_of_iff' _ isWay_iff

theorem isAvailable_of_accepts (accepted : context.accepts id = true) :
    context.IsAvailable id ∧ ((context.tree.decl id).kind.isRecord = true ∨
      (context.tree.decl id).kind = .enumDecl →
        (context.tree.decl id).has .isDefinition = true) := by
  unfold accepts at accepted
  simp only [Bool.and_eq_true, Bool.not_eq_true', beq_iff_eq, Bool.or_eq_true] at accepted
  obtain ⟨⟨⟨⟨header, file⟩, access⟩, kept⟩, complete⟩ := accepted
  refine ⟨⟨file, header, access, kept⟩, fun forward => ?_⟩
  rcases complete with neither | defined
  · rcases forward with kind | kind <;> simp [kind] at neither
  · exact defined

theorem accepts_of_isAvailable (available : context.IsAvailable id)
    (passable : (context.tree.decl id).kind.IsPassable)
    (defined : (context.tree.decl id).kind.isRecord = true ∨
      (context.tree.decl id).kind = .enumDecl →
        (context.tree.decl id).has .isDefinition = true) : context.accepts id = true := by
  obtain ⟨file, header, access, kept⟩ := available
  unfold accepts
  rcases passable with kind | kind | kind | kind
  · simp [kind, file, header, access, kept, DeclKind.isRecord]
  · simp [kind, file, header, access, kept, DeclKind.isRecord]
  · simp [file, header, access, kept, defined (.inl (by rw [kind]; rfl))]
  · simp [file, header, access, kept, defined (.inl (by rw [kind]; rfl))]

/-- What the traversal enters has a name, unless it is a linkage specification, and no rule skips
it, unless it is an inline namespace. -/
theorem IsEntered.kept (entered : context.IsEntered id) :
    (context.tree.decl id).kind.IsPassable ∧
      ((context.tree.decl id).kind = .namespaceDecl ∨ (context.tree.decl id).kind.IsClass →
        (context.tree.decl id).anonymous = false) ∧
      ((context.tree.decl id).kind = .namespaceDecl ∧
          (context.tree.decl id).has .isInlineNamespace = false ∨
        (context.tree.decl id).kind.IsClass → context.skipRule? id = none) := by
  by_cases isClass : (context.tree.decl id).kind.IsClass
  · obtain ⟨named, kept, -⟩ := (isEntered_class_iff isClass).mp entered
    exact ⟨.inr (.inr isClass), fun _ => named, fun _ => kept⟩
  · by_cases isNamespace : (context.tree.decl id).kind = .namespaceDecl
    · obtain ⟨named, outcome⟩ := (isEntered_namespace_iff isNamespace).mp entered
      refine ⟨.inl isNamespace, fun _ => named, fun plain => ?_⟩
      rcases plain with ⟨-, plain⟩ | other
      · exact outcome.resolve_left (by rw [plain]; exact Bool.false_ne_true)
      · exact absurd other isClass
    · by_cases isLinkage : (context.tree.decl id).kind = .linkageSpec
      · exact ⟨.inr (.inl isLinkage), fun other => absurd other (not_or.mpr ⟨isNamespace, isClass⟩),
          fun other => absurd other (not_or.mpr ⟨fun both => isNamespace both.1, isClass⟩)⟩
      · obtain ⟨notClass, notStruct⟩ := not_or.mp isClass
        exact absurd entered
          (not_isEntered_of_kind rfl ⟨isNamespace, isLinkage, notClass, notStruct⟩)

/-- Whatever the traversal comes to is led to by declarations that it enters. -/
theorem IsVisited.exists_path (visited : context.IsVisited id) :
    ∃ path, List.IsChain (fun outer inner => inner ∈ context.tree.children outer)
        (DeclTree.root :: (path ++ [id])) ∧
      (∀ other ∈ path ++ [id], context.accepts other = true) ∧
      ∀ outer ∈ path, context.IsEntered outer := by
  induction visited with
  | top child accepted =>
      exact ⟨[], List.isChain_cons_cons.mpr ⟨child, .singleton _⟩,
        List.forall_mem_singleton.mpr accepted, nofun⟩
  | @inside outer id _ entered child accepted ih =>
      obtain ⟨path, linked, accepts, enters⟩ := ih
      refine ⟨path ++ [outer], ?_, List.forall_mem_append.mpr
        ⟨accepts, List.forall_mem_singleton.mpr accepted⟩, List.forall_mem_append.mpr
        ⟨enters, List.forall_mem_singleton.mpr entered⟩⟩
      rw [← List.cons_append]
      refine List.isChain_append.mpr ⟨linked, .singleton _, ?_⟩
      rw [← List.cons_append, List.getLast?_concat]
      rintro _ ⟨rfl⟩ _ ⟨rfl⟩
      exact child

/-- A way leads to whatever the traversal comes to, if it enters it or there is nothing to enter. -/
theorem IsVisited.exists_isWay (visited : context.IsVisited id)
    (suits : context.IsEntered id ∨ (context.tree.decl id).kind ≠ .namespaceDecl ∧
      ¬ (context.tree.decl id).kind.IsClass) : ∃ path, context.IsWay path id := by
  obtain ⟨path, linked, accepted, entered⟩ := visited.exists_path
  have own (other : DeclId) (member : other ∈ path ++ [id]) : context.IsEntered other ∨
      (context.tree.decl other).kind ≠ .namespaceDecl ∧
        ¬ (context.tree.decl other).kind.IsClass := by
    rcases List.mem_append.mp member with inside | last
    · exact .inl (entered other inside)
    · rw [List.mem_singleton.mp last]
      exact suits
  refine ⟨path, linked, fun outer member => (entered outer member).kept.1,
    fun other member => (isAvailable_of_accepts (accepted other member)).1,
    fun other member => (isAvailable_of_accepts (accepted other member)).2,
    fun other member scope => ?_, fun other member scope => ?_⟩
  · rcases own other member with enters | ⟨notNamespace, notClass⟩
    · exact enters.kept.2.1 scope
    · exact absurd scope (not_or.mpr ⟨notNamespace, notClass⟩)
  · rcases own other member with enters | ⟨notNamespace, notClass⟩
    · exact enters.kept.2.2 scope
    · exact absurd scope (not_or.mpr ⟨fun both => notNamespace both.1, notClass⟩)

section

variable (way : context.IsWay path id) (isClass : (context.tree.decl id).kind.IsClass)
include way isClass

theorem IsWay.isPassable : ∀ other ∈ path ++ [id], (context.tree.decl other).kind.IsPassable :=
  List.forall_mem_append.mpr ⟨way.scopes, List.forall_mem_singleton.mpr (.inr (.inr isClass))⟩

theorem IsWay.accepts : ∀ other ∈ path ++ [id], context.accepts other = true :=
  fun other member => accepts_of_isAvailable (way.available other member)
    (way.isPassable isClass other member) (way.defined other member)

/-- The traversal enters whatever is on a way to a class, if the classes on it are exported. -/
theorem IsWay.isEntered (exported : ∀ other ∈ path ++ [id],
    (context.tree.decl other).kind.IsClass → context.isExported other = true) :
    ∀ other ∈ path ++ [id], context.IsEntered other := by
  intro other member
  rcases way.isPassable isClass other member with isNamespace | isLinkage | isOther
  · refine (isEntered_namespace_iff isNamespace).mpr
      ⟨way.named other member (.inl isNamespace), ?_⟩
    cases isInline : (context.tree.decl other).has .isInlineNamespace with
    | true => exact .inl rfl
    | false => exact .inr (way.kept other member (.inl ⟨isNamespace, isInline⟩))
  · exact isEntered_linkage isLinkage
  · exact (isEntered_class_iff isOther).mpr ⟨way.named other member (.inr isOther),
      way.kept other member (.inr isOther), exported other member isOther⟩

end

end

/-! ## Soundness -/

/-- Whether a fragment binds a declaration. -/
inductive ComesFrom (context : UnitContext) (id : DeclId) : Fragment → Prop
  | class_ {parent : Parent} {binding : ClassBinding}
      (isClass : (context.tree.decl id).kind.IsClass)
      (made : context.IsBindingOf id parent binding) : ComesFrom context id (.class_ binding)
  | own {parent : Parent} {fragments : List Fragment} {fragment : Fragment}
      (gives : context.GivesOwn id parent fragments) (member : fragment ∈ fragments) :
      ComesFrom context id fragment

/-- Whether the fragments of a unit are the shares of declarations in the order of the traversal:
each class, enum, function, variable or constant in a share comes of the declaration, and a way
leads there. -/
structure IsDivision (context : UnitContext) (bindings : UnitBindings) (shares : List Share) :
    Prop where
  order : (shares.map (·.id)).Sublist context.visitOrder
  fragments : bindings.fragments = shares.flatMap (·.fragments)
  sound : ∀ share ∈ shares, ∀ fragment ∈ share.fragments, fragment.isDeclared = true →
    context.ComesFrom share.id fragment ∧ ∃ path, context.IsWay path share.id

section

variable {context : UnitContext} {leg : Leg}

theorem GivesOwn.kind {id : DeclId} {parent : Parent} {fragments : List Fragment}
    (gives : context.GivesOwn id parent fragments) (given : fragments ≠ []) :
    (context.tree.decl id).kind ≠ .namespaceDecl ∧ ¬ (context.tree.decl id).kind.IsClass := by
  cases gives with
  | nothing => exact absurd rfl given
  | enum kind | values kind | function kind | constant kind | variable_ kind =>
      rw [kind]
      simp [DeclKind.IsClass]

/-- What a leg declares comes of its declaration, and a way leads there. -/
theorem IsLeg.sound (isLeg : context.IsLeg leg) (visited : context.IsVisited leg.id)
    {fragment : Fragment} (member : fragment ∈ leg.declared) :
    context.ComesFrom leg.id fragment ∧ ∃ path, context.IsWay path leg.id := by
  obtain ⟨-, outcome⟩ := isLeg.outcome
  cases outcome with
  | passed _ _ gives =>
      exact ⟨.own gives member,
        visited.exists_isWay (.inr (gives.kind (List.ne_nil_of_mem member)))⟩
  | opened _ _ _ _ nothing =>
      rw [nothing] at member
      cases member
  | bound binding entered isClass _ _ _ gives made =>
      rw [gives, List.mem_singleton] at member
      subst member
      exact ⟨.class_ isClass made, visited.exists_isWay (.inl entered)⟩
  | taken _ _ _ nothing =>
      rw [Leg.declared, nothing] at member
      cases member

end

end UnitContext

def Leg.share (leg : Leg) : Share :=
  ⟨leg.id, leg.fragments⟩

namespace UnitContext

/-! ## Completeness -/

/-- A class is bound in its own share. -/
def IsOwnedBy (context : UnitContext) (shares : List Share) (unit : UnitState) (id : DeclId) :
    Prop :=
  ∃ share ∈ shares, share.id = id ∧ ∃ binding, .class_ binding ∈ share.fragments ∧
    binding.cppType = context.tree.qualifiedName id ∧
    binding.identifier = Name.classIdentifier (context.tree.qualifiedName id) ∧
    (binding.cppType, binding.identifier) ∈ unit.classes

/-- A class gives nothing, since the share of another declaration has its type or its identifier. -/
def IsLost (context : UnitContext) (shares : List Share) (unit : UnitState) (id : DeclId) : Prop :=
  (∀ share ∈ shares, share.id = id → share.fragments = []) ∧
    ∃ share ∈ shares, share.id ≠ id ∧ ∃ entry ∈ Fragment.allBound share.fragments,
      entry ∈ unit.classes ∧ (entry.1 = context.tree.qualifiedName id ∨
        entry.2 = Name.classIdentifier (context.tree.qualifiedName id))

end UnitContext

theorem UnitState.mem_classes_of_collision? {state : UnitState} {qualified cppType owner : String}
    (owned : state.collision? (Name.classIdentifier qualified) cppType = some owner) :
    (owner, Name.classIdentifier qualified) ∈ state.classes := by
  unfold collision? at owned
  split at owned
  case isTrue => cases owned
  case isFalse =>
    obtain ⟨earlier, later, parts, -⟩ := List.lookup_eq_some_iff.mp owned
    have member : (Name.classIdentifier qualified, owner) ∈ state.bindings := by simp [parts]
    have isClass := Name.startsWith_classIdentifier qualified
    exact List.mem_map.mpr ⟨_, List.mem_filter.mpr ⟨member, isClass⟩, rfl⟩

namespace UnitContext

/-- Whether one of some legs binds a class and goes on with what is nested in it. -/
def IsBoundIn (context : UnitContext) (legs : List Leg) (id : DeclId) : Prop :=
  ∃ leg ∈ legs, leg.id = id ∧ leg.stop.inside = nestedDeclarations context.tree id ∧
    ∃ binding, .class_ binding ∈ leg.fragments ∧ context.IsBindingOf id leg.parent binding ∧
      leg.between.unit.identifierFor? (context.tree.qualifiedName id) =
        some (Name.classIdentifier (context.tree.qualifiedName id))

/-- Whether some legs come to a class, but always find its type or its identifier taken. -/
def IsTakenIn (context : UnitContext) (legs : List Leg) (id : DeclId) : Prop :=
  (∀ leg ∈ legs, leg.id = id → leg.fragments = []) ∧
    ∃ leg ∈ legs, leg.id = id ∧ leg.before.unit.register?
      (Name.classIdentifier (context.tree.qualifiedName id))
      (context.tree.qualifiedName id) = none

section

variable {context : UnitContext} {legs : List Leg} {id : DeclId}

/-- A class that the traversal enters is bound or taken once a leg has come to it. -/
theorem isBoundIn_or_isTakenIn (isLeg : ∀ leg ∈ legs, context.IsLeg leg)
    (isClass : (context.tree.decl id).kind.IsClass) (entered : context.IsEntered id)
    (reached : ∃ leg ∈ legs, leg.id = id) :
    context.IsBoundIn legs id ∨ context.IsTakenIn legs id := by
  by_cases bound : context.IsBoundIn legs id
  · exact .inl bound
  · have taken (leg : Leg) (member : leg ∈ legs) (same : leg.id = id) :
        leg.fragments = [] ∧ leg.before.unit.register?
          (Name.classIdentifier (context.tree.qualifiedName id))
          (context.tree.qualifiedName id) = none := by
      subst same
      obtain ⟨-, outcome⟩ := (isLeg leg member).outcome
      cases outcome with
      | passed closed => exact absurd entered closed
      | opened _ isScope =>
          rcases isClass with kind | kind <;> rw [kind] at isScope <;> simp at isScope
      | bound binding _ _ _ known inside gives made =>
          refine absurd ⟨leg, member, rfl, inside, binding, ?_, made, known⟩ bound
          exact (List.mem_filter.mp (gives ▸ List.mem_singleton_self _)).1
      | taken _ _ taken nothing => exact ⟨nothing, taken⟩
    obtain ⟨leg, member, same⟩ := reached
    exact .inr ⟨fun other among same => (taken other among same).1, leg, member, same,
      (taken leg member same).2⟩

/-- A leg comes to whatever is next on a way, unless it is in a class that is taken. -/
theorem exists_leg_of_child (isLeg : ∀ leg ∈ legs, context.IsLeg leg)
    (closed : ∀ leg ∈ legs, ∀ inner ∈ leg.stop.inside, context.accepts inner = true →
      ∃ other ∈ legs, other.id = inner) {outer inner : DeclId} (entered : context.IsEntered outer)
    (reached : ∃ leg ∈ legs, leg.id = outer) (child : inner ∈ context.tree.children outer)
    (accepted : context.accepts inner = true)
    (nests : (context.tree.decl outer).kind.IsClass → (context.tree.decl inner).kind.IsClass) :
    (∃ leg ∈ legs, leg.id = inner) ∨
      (context.tree.decl outer).kind.IsClass ∧ context.IsTakenIn legs outer := by
  by_cases isClass : (context.tree.decl outer).kind.IsClass
  · rcases isBoundIn_or_isTakenIn isLeg isClass entered reached with bound | taken
    · obtain ⟨leg, member, -, inside, -⟩ := bound
      refine .inl (closed leg member inner ?_ accepted)
      rw [inside]
      refine List.mem_append_left _ (List.mem_append_left _ (List.mem_filter.mpr ⟨child, ?_⟩))
      rcases nests isClass with kind | kind <;> rw [kind] <;> rfl
    · exact .inr ⟨isClass, taken⟩
  · obtain ⟨leg, member, rfl⟩ := reached
    obtain ⟨-, outcome⟩ := (isLeg leg member).outcome
    cases outcome with
    | passed notEntered => exact absurd entered notEntered
    | opened _ _ _ inside => exact .inl (closed leg member inner (inside ▸ child) accepted)
    | bound _ _ kind => exact absurd kind isClass
    | taken _ kind => exact absurd kind isClass

/-- The last of some declarations, each inside the one before, is bound if it is a class, or one of
them is a class that is taken. -/
theorem isBoundIn_of_chain (isLeg : ∀ leg ∈ legs, context.IsLeg leg)
    (closed : ∀ leg ∈ legs, ∀ inner ∈ leg.stop.inside, context.accepts inner = true →
      ∃ other ∈ legs, other.id = inner) {path : List DeclId}
    (accepted : ∀ other ∈ path ++ [id], context.accepts other = true)
    (entered : ∀ other ∈ path ++ [id], context.IsEntered other)
    (linked : List.IsChain (fun outer inner => inner ∈ context.tree.children outer) (path ++ [id]))
    (nests : List.IsChain (fun outer inner => (context.tree.decl outer).kind.IsClass →
      (context.tree.decl inner).kind.IsClass) (path ++ [id]))
    (isClass : (context.tree.decl id).kind.IsClass)
    (reached : ∀ first ∈ (path ++ [id]).head?, ∃ leg ∈ legs, leg.id = first) :
    context.IsBoundIn legs id ∨ ∃ other ∈ path ++ [id],
      (context.tree.decl other).kind.IsClass ∧ context.IsTakenIn legs other := by
  induction path with
  | nil =>
      obtain bound | taken :=
        isBoundIn_or_isTakenIn isLeg isClass (entered id (by simp)) (reached id rfl)
      · exact .inl bound
      · exact .inr ⟨id, by simp, isClass, taken⟩
  | cons outer path ih =>
      obtain ⟨acceptsOuter, acceptsRest⟩ := List.forall_mem_cons.mp accepted
      obtain ⟨entersOuter, entersRest⟩ := List.forall_mem_cons.mp entered
      obtain ⟨linksOuter, linksRest⟩ := List.isChain_cons.mp linked
      obtain ⟨nestsOuter, nestsRest⟩ := List.isChain_cons.mp nests
      by_cases taken : (context.tree.decl outer).kind.IsClass ∧ context.IsTakenIn legs outer
      · exact .inr ⟨outer, List.mem_cons_self, taken⟩
      · have next (first : DeclId) (isFirst : first ∈ (path ++ [id]).head?) :
            ∃ leg ∈ legs, leg.id = first :=
          (exists_leg_of_child isLeg closed entersOuter (reached outer rfl)
            (linksOuter first isFirst) (acceptsRest first (List.mem_of_mem_head? isFirst))
            (nestsOuter first isFirst)).resolve_right taken
        rcases ih acceptsRest entersRest linksRest nestsRest next with bound | found
        · exact .inl bound
        · obtain ⟨other, member, others⟩ := found
          exact .inr ⟨other, List.mem_cons_of_mem _ member, others⟩

end

section

variable {context : UnitContext} {progress : Progress} {legs : List Leg} {id : DeclId}
  (walks : context.Walks (context.tree.children DeclTree.root) .global ⟨UnitState.empty, []⟩ legs
    progress)
  (sound : progress.unit.Sound)
include walks sound

theorem IsBoundIn.isOwnedBy (bound : context.IsBoundIn legs id) :
    context.IsOwnedBy (legs.map Leg.share) progress.unit id := by
  obtain ⟨leg, member, same, -, binding, given, made, known⟩ := bound
  refine ⟨leg.share, List.mem_map_of_mem member, same, binding, given, made.cppType,
    made.identifier, ?_⟩
  have later := (walks.retains.2 leg member).growsTo.identifierFor?_eq_some known
  rw [made.cppType, made.identifier, sound.classes]
  exact (lookup_eq_some_iff_mem sound.types).mp later

/-- What takes the type or the identifier of a class is in a share that is not its own. -/
theorem IsTakenIn.isLost (bound : (Fragment.allBound (legs.flatMap Leg.fragments)).Perm
      progress.unit.byType) (taken : context.IsTakenIn legs id) :
    context.IsLost (legs.map Leg.share) progress.unit id := by
  obtain ⟨nothing, leg, member, -, refused⟩ := taken
  have gives : ∀ share ∈ legs.map Leg.share, share.id = id → share.fragments = [] :=
    List.forall_mem_map.mpr nothing
  have kept := ((walks.isLeg leg member).outcome.1).trans (walks.retains.2 leg member)
  have owner : ∃ entry ∈ progress.unit.classes, entry.1 = context.tree.qualifiedName id ∨
      entry.2 = Name.classIdentifier (context.tree.qualifiedName id) := by
    rcases UnitState.register?_eq_none refused with ⟨identifier, known⟩ | ⟨cppType, owned⟩
    · refine ⟨(context.tree.qualifiedName id, identifier), ?_, .inl rfl⟩
      rw [sound.classes]
      exact (lookup_eq_some_iff_mem sound.types).mp (kept.growsTo.identifierFor?_eq_some known)
    · exact ⟨(cppType, Name.classIdentifier (context.tree.qualifiedName id)),
        kept.classes (UnitState.mem_classes_of_collision? owned), .inr rfl⟩
  obtain ⟨entry, among, same⟩ := owner
  have made := bound.symm.subset (sound.classes ▸ among)
  obtain ⟨fragment, given, binds⟩ := List.mem_flatMap.mp made
  obtain ⟨other, present, gave⟩ := List.mem_flatMap.mp given
  refine ⟨gives, other.share, List.mem_map_of_mem present, fun own => ?_, entry,
    List.mem_flatMap.mpr ⟨fragment, gave, binds⟩, among, same⟩
  have empty := nothing other present own
  rw [empty] at gave
  cases gave

end

end UnitContext

/-- The fragments of a unit are the shares of its declarations, each of one that a way leads to.  A
class that a way leads to which exports all its classes, and nests nothing but classes in them, is
bound in its own share, or it or a class around it has lost its type or its identifier. -/
theorem unit_is_divided {depth : Nat} {options : BindOptions} {index : ProjectIndex}
    {unit : SourceUnit} {relative : String} {result : UnitResult}
    (run : generateUnit depth options index unit relative = some result) :
    let context := UnitContext.ofUnit depth unit options index relative
    ∃ progress shares,
      context.visitUnit.run ⟨UnitState.empty, []⟩ = some (result.bindings.fragments, progress) ∧
      context.IsDivision result.bindings shares ∧
      ∀ path id, context.IsWay path id → (unit.tree.decl id).kind.IsClass →
        (∀ other ∈ path ++ [id], (unit.tree.decl other).kind.IsClass →
          context.isExported other = true) →
        List.IsChain (fun outer inner => (unit.tree.decl outer).kind.IsClass →
          (unit.tree.decl inner).kind.IsClass) (path ++ [id]) →
        context.IsOwnedBy shares progress.unit id ∨
          ∃ other ∈ path ++ [id], (unit.tree.decl other).kind.IsClass ∧
            context.IsLost shares progress.unit other := by
  intro context
  obtain ⟨progress, visitRun, -⟩ := bindings_of_generateUnit run
  obtain ⟨legs, walks, gives, order⟩ := UnitContext.walks_of_visitUnit visitRun
  obtain ⟨sound, bound⟩ := balanced_of_visitUnit visitRun
  have isVisited := walks.isVisited fun id child accepted => .top child accepted
  refine ⟨progress, legs.map Leg.share, visitRun, ⟨?_, ?_, ?_⟩,
    fun path id way isClass exported nests => ?_⟩
  · rwa [List.map_map]
  · rw [gives, List.flatMap_map]
    rfl
  · refine List.forall_mem_map.mpr fun leg member fragment given isDeclared => ?_
    exact (walks.isLeg leg member).sound (isVisited leg member)
      (List.mem_filter.mpr ⟨given, isDeclared⟩)
  · obtain ⟨linksRoot, linked⟩ := List.isChain_cons.mp way.linked
    have accepted := way.accepts isClass
    have entered := way.isEntered isClass exported
    have reached := fun first isFirst => walks.exists_leg.1 first (linksRoot first isFirst)
      (accepted first (List.mem_of_mem_head? isFirst))
    rcases UnitContext.isBoundIn_of_chain walks.isLeg walks.exists_leg.2 accepted entered linked
      nests isClass reached with own | ⟨other, member, kind, taken⟩
    · exact .inl (own.isOwnedBy walks sound)
    · exact .inr ⟨other, member, kind, taken.isLost walks sound (gives ▸ bound)⟩

/-- A namespace, a class in it and another inside that class. -/
def nestUnit : SourceUnit :=
  .ofSteps [.add 0 .namespaceDecl "geo", .add 1 .classDecl "Shape", .add 2 .classDecl "Edge"]

theorem nested_class_is_bound :
    let context := UnitContext.ofUnit 0 nestUnit .plain .empty "unit.hpp"
    context.IsWay [1, 2] 3 ∧
      ∃ result, ∃ progress : Progress, ∃ shares,
        generateUnit 0 .plain .empty nestUnit "unit.hpp" = some result ∧
        progress.unit.classes =
          [("geo::Shape", "rb_cGeoShape"), ("geo::Shape::Edge", "rb_cGeoShapeEdge")] ∧
        context.IsDivision result.bindings shares ∧
        (context.IsOwnedBy shares progress.unit 3 ∨ ∃ other ∈ [1, 2, 3],
          (nestUnit.tree.decl other).kind.IsClass ∧ context.IsLost shares progress.unit other) := by
  intro context
  have way : context.IsWay [1, 2] 3 := by decide +kernel
  have bound : (generateUnit 0 .plain .empty nestUnit "unit.hpp").isSome ∧
      (context.visitUnit.run ⟨UnitState.empty, []⟩).map (fun outcome => outcome.2.unit.classes) =
        some [("geo::Shape", "rb_cGeoShape"), ("geo::Shape::Edge", "rb_cGeoShapeEdge")] := by
    decide +kernel
  obtain ⟨result, run⟩ := Option.isSome_iff_exists.mp bound.1
  obtain ⟨progress, shares, visitRun, division, owned⟩ := unit_is_divided run
  refine ⟨way, result, progress, shares, run, ?_, division, ?_⟩
  · have classes := bound.2
    rw [visitRun] at classes
    exact Option.some.inj classes
  · exact owned [1, 2] 3 way (by decide +kernel) (by decide +kernel) (by decide +kernel)

/-- A class, a linkage specification inside it and another class inside that. -/
def linkedUnit : SourceUnit :=
  .ofSteps [.add 0 .classDecl "Outer", .linkageSpec 1, .add 2 .classDecl "Inner"]

/-- A way leads to the inner class, but it is not bound, though the outer class has what it asks for
and nothing else is taken. -/
theorem class_in_linkage_is_not_bound :
    let context := UnitContext.ofUnit 0 linkedUnit .plain .empty "unit.hpp"
    context.IsWay [1, 2] 3 ∧ (linkedUnit.tree.decl 3).kind.IsClass ∧
      (∀ other ∈ [1, 2, 3], context.isExported other = true) ∧
      (context.visitUnit.run ⟨UnitState.empty, []⟩).map (fun outcome => outcome.2.unit.classes) =
        some [("Outer", "rb_cOuter")] ∧
      (linkedUnit.tree.qualifiedName 1, Name.classIdentifier (linkedUnit.tree.qualifiedName 1)) =
        ("Outer", "rb_cOuter") ∧
      (linkedUnit.tree.qualifiedName 3, Name.classIdentifier (linkedUnit.tree.qualifiedName 3)) =
        ("Outer::Inner", "rb_cOuterInner") := by
  decide +kernel

end Bindery
