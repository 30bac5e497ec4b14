import Bindery.Proofs.Spelling.Parts
import Bindery.Proofs.Tree.Rank

/-!
# Trees that agree

A region of a tree is closed if nothing in it leads out of it.  Another tree that tells the same of
such a region answers the questions about it as the first one does.
-/

set_option autoImplicit false

namespace Bindery

namespace Decl

/-- A declaration without its place in a tree. -/
def unplaced (decl : Decl) : Decl :=
  { decl with semanticParent := none, lexicalParent := none, children := [] }

/-- A namespace, or the unit as a whole. -/
def IsNamespace (decl : Decl) : Prop :=
  decl.kind = .namespaceDecl ∨ decl.kind = .unitRoot

instance (decl : Decl) : Decidable decl.IsNamespace :=
  inferInstanceAs (Decidable (_ ∨ _))

theorem not_isNamespace {decl : Decl} {kind : DeclKind} (is : decl.kind = kind)
    (other : kind ≠ .namespaceDecl ∧ kind ≠ .unitRoot) : ¬ decl.IsNamespace := by
  rintro (same | same)
  · exact other.1 (is.symm.trans same)
  · exact other.2 (is.symm.trans same)

/-- The types that a declaration tells of. -/
def types (decl : Decl) : List TypeId :=
  decl.type.toList ++ decl.resultType.toList ++ decl.underlyingType.toList

section

variable {decl : Decl} {type : TypeId}

theorem mem_types_of_type (told : decl.type = some type) : type ∈ decl.types := by
  simp [types, told]

theorem mem_types_of_resultType (told : decl.resultType = some type) : type ∈ decl.types := by
  simp [types, told]

theorem mem_types_of_underlyingType (told : decl.underlyingType = some type) :
    type ∈ decl.types := by
  simp [types, told]

end

end Decl

/-- The types that a type leads to. -/
def CppType.links (type : CppType) : List TypeId :=
  type.pointee.toList ++ type.canonical.toList ++ type.result.toList ++ type.params

namespace DeclTree

theorem type_of_size_le {tree : DeclTree} {type : TypeId} (outside : tree.types.size ≤ type) :
    tree.type type = CppType.make .unexposed "" := by
  rw [DeclTree.type, Array.getD]
  exact dif_neg (Nat.not_lt_of_le outside)

theorem eq_type_of_functionBehind? {tree : DeclTree} {type : TypeId} {function : CppType}
    (found : Speller.functionBehind? tree type = some function) :
    function = tree.type type ∨ ∃ core ∈ (tree.type type).links, function = tree.type core := by
  unfold Speller.functionBehind? at found
  dsimp only at found
  split at found
  · exact .inl (Option.some.inj found).symm
  · obtain ⟨core, told, rfl⟩ := Option.map_eq_some_iff.mp (Option.filter_eq_some_iff.mp found).1
    exact .inr ⟨core, by simp [CppType.links, told], rfl⟩

/-! ## Links -/

/-- Each link leads to a declaration of the tree; those to definitions and templates lead to no
namespace. -/
structure IsLinked (tree : DeclTree) : Prop where
  declares : ∀ {type : TypeId} {id : DeclId}, (tree.type type).declaration = some id →
    id < tree.size
  refers : ∀ {id target : DeclId}, (tree.decl id).referenced = some target → target < tree.size
  mentions : ∀ {id target : DeclId}, (tree.decl id).kind = .templateRef →
    (tree.decl id).referenced = some target → ¬ (tree.decl target).IsNamespace
  defines : ∀ {id target : DeclId}, (tree.decl id).definition = some target →
    target < tree.size ∧ ¬ (tree.decl target).IsNamespace
  specializes : ∀ {id target : DeclId}, (tree.decl id).specializedTemplate = some target →
    target < tree.size ∧ ¬ (tree.decl target).IsNamespace

/-- Whether the links of a declaration lead where they should. -/
def HasLinks (tree : DeclTree) (decl : Decl) : Prop :=
  (∀ target ∈ decl.referenced, target < tree.size ∧
    (decl.kind = .templateRef → ¬ (tree.decl target).IsNamespace)) ∧
  (∀ target ∈ decl.definition, target < tree.size ∧ ¬ (tree.decl target).IsNamespace) ∧
  ∀ target ∈ decl.specializedTemplate, target < tree.size ∧ ¬ (tree.decl target).IsNamespace

instance (tree : DeclTree) (decl : Decl) : Decidable (tree.HasLinks decl) :=
  inferInstanceAs (Decidable (_ ∧ _ ∧ _))

theorem isLinked_iff {tree : DeclTree} :
    tree.IsLinked ↔
      (∀ type < tree.types.size, ∀ id ∈ (tree.type type).declaration, id < tree.size) ∧
        ∀ id < tree.size, tree.HasLinks (tree.decl id) := by
  constructor
  · intro linked
    refine ⟨fun type _ id declared => linked.declares declared, fun id _ => ⟨?_, ?_, ?_⟩⟩
    · exact fun target refers => ⟨linked.refers refers, fun kind => linked.mentions kind refers⟩
    · exact fun target defines => linked.defines defines
    · exact fun target specializes => linked.specializes specializes
  · rintro ⟨types, decls⟩
    have links : ∀ id, tree.HasLinks (tree.decl id) := by
      intro id
      by_cases inside : id < tree.size
      · exact decls id inside
      · rw [decl_of_size_le (Nat.le_of_not_lt inside)]
        exact ⟨nofun, nofun, nofun⟩
    refine ⟨fun {type id} declared => ?_, fun refers => ((links _).1 _ refers).1,
      fun kind refers => ((links _).1 _ refers).2 kind, fun defines => (links _).2.1 _ defines,
      fun specializes => (links _).2.2 _ specializes⟩
    by_cases inside : type < tree.types.size
    · exact types type inside id declared
    · rw [type_of_size_le (Nat.le_of_not_lt inside)] at declared
      cases declared

instance (tree : DeclTree) : Decidable tree.IsLinked :=
  decidable_of_iff _ isLinked_iff.symm

/-! ## Regions -/

/-- A region of a tree: declarations, those among them that are meant with all they hold, and
types. -/
structure Region where
  decls : DeclId → Prop
  wholes : DeclId → Prop
  types : TypeId → Prop

/-- Whether nothing leads out of a region of a tree, where namespaces need not be meant with all they
hold. -/
structure Region.IsClosed (region : Region) (tree : DeclTree) : Prop where
  decl : ∀ {id : DeclId}, region.wholes id → region.decls id
  whole : ∀ {id : DeclId}, region.decls id → ¬ (tree.decl id).IsNamespace → region.wholes id
  child : ∀ {id child : DeclId}, child ∈ tree.children id → region.decls child
  parent : ∀ {id parent : DeclId}, tree.semanticParent id = some parent → region.decls parent
  typed : ∀ {id : DeclId} {type : TypeId}, type ∈ (tree.decl id).types → region.types type
  made : ∀ {type inner : TypeId}, region.types type → inner ∈ (tree.type type).links →
    region.types inner
  declares : ∀ {type : TypeId} {id : DeclId}, (tree.type type).declaration = some id →
    region.decls id
  refers : ∀ {id target : DeclId}, (tree.decl id).referenced = some target → region.decls target
  mentions : ∀ {id target : DeclId}, (tree.decl id).kind = .templateRef →
    (tree.decl id).referenced = some target → region.wholes target
  defines : ∀ {id target : DeclId}, (tree.decl id).definition = some target → region.wholes target
  specializes : ∀ {id target : DeclId}, (tree.decl id).specializedTemplate = some target →
    region.wholes target

namespace Region.IsClosed

variable {region : Region} {tree : DeclTree} (closed : region.IsClosed tree)
include closed

theorem whole_of_kind {id : DeclId} {kind : DeclKind} (known : region.decls id)
    (is : (tree.decl id).kind = kind) (other : kind ≠ .namespaceDecl ∧ kind ≠ .unitRoot) :
    region.wholes id :=
  closed.whole known (Decl.not_isNamespace is other)

theorem childOfKind {p : DeclKind → Bool} {id child : DeclId}
    (member : child ∈ tree.childrenOfKind p id) : region.decls child :=
  closed.child (List.mem_filter.mp member).1

theorem whole_of_parameter {function param : DeclId}
    (member : param ∈ tree.parameters function) : region.wholes param := by
  have isParam := eq_of_beq (List.mem_filter.mp member).2
  exact closed.whole_of_kind (closed.childOfKind member) isParam (by decide)

theorem pointee {type pointee : TypeId} (known : region.types type)
    (points : (tree.type type).pointee = some pointee) : region.types pointee :=
  closed.made known (by simp [CppType.links, points])

theorem canonical {type : TypeId} (known : region.types type) :
    region.types (tree.canonical type) := by
  unfold DeclTree.canonical
  cases core : (tree.type type).canonical with
  | none => exact known
  | some core => exact closed.made known (by simp [CppType.links, core])

theorem isPart {inner outer : TypeId} (known : region.types outer)
    (isPart : tree.IsPart inner outer) : region.types inner := by
  have behind {pointee : TypeId} {function : CppType}
      (around : (tree.type outer).pointee = some pointee)
      (found : Speller.functionBehind? tree pointee = some function)
      (leads : inner ∈ function.links) : region.types inner := by
    have pointed := closed.pointee known around
    rcases eq_type_of_functionBehind? found with rfl | ⟨core, told, rfl⟩
    · exact closed.made pointed leads
    · exact closed.made (closed.made pointed told) leads
  cases isPart with
  | pointee around => exact closed.pointee known around
  | result around found gives => exact behind around found (by simp [CppType.links, gives])
  | param around found takes => exact behind around found (by simp [CppType.links, takes])

theorem nonReference {type : TypeId} (known : region.types type) :
    region.types (tree.nonReference type) := by
  have steps : ∀ depth type, region.types type → region.types (tree.nonReferenceTo depth type) := by
    intro depth
    induction depth with
    | zero => exact fun type known => known
    | succ depth ih =>
        intro type known
        unfold nonReferenceTo
        dsimp only
        split
        · split
          · rename_i pointee points
            exact ih pointee (closed.pointee known points)
          · exact known
        · exact known
  exact steps _ type known

theorem typeDeclaration {type : TypeId} {id : DeclId}
    (declared : tree.typeDeclaration type = some id) : region.decls id := by
  have steps : ∀ depth type, tree.typeDeclarationTo depth type = some id → region.decls id := by
    intro depth
    induction depth with
    | zero => exact fun type none => nomatch none
    | succ depth ih =>
        intro type found
        unfold typeDeclarationTo at found
        dsimp only at found
        split at found
        · rcases Option.or_eq_some_iff.mp found with here | ⟨-, behind⟩
          · exact closed.declares here
          · obtain ⟨pointee, -, further⟩ := Option.bind_eq_some_iff.mp behind
            exact ih pointee further
        · exact closed.declares found
  exact steps _ type declared

theorem descendant {id other : DeclId} (member : other ∈ tree.descendants id) :
    region.decls other := by
  have steps : ∀ depth id, other ∈ tree.descendantsTo depth id → region.decls other := by
    intro depth
    induction depth with
    | zero => exact fun id none => nomatch none
    | succ depth ih =>
        intro id found
        obtain ⟨child, held, found⟩ := List.mem_flatMap.mp found
        rcases List.mem_cons.mp found with rfl | below
        · exact closed.child held
        · exact ih child below
  exact steps _ id member

end Region.IsClosed

/-! ## Chains of types -/

section Chains

variable {tree : DeclTree} {rank : TypeId → Nat}
  (lower : ∀ inner outer, tree.IsPart inner outer → rank inner < rank outer)
include lower

theorem typeDeclarationTo_eq_of_rank_lt {depth more : Nat} {type : TypeId}
    (enough : rank type < depth) (alsoEnough : rank type < more) :
    tree.typeDeclarationTo depth type = tree.typeDeclarationTo more type := by
  induction depth generalizing more type with
  | zero => exact absurd enough (Nat.not_lt_zero _)
  | succ depth ih =>
      obtain ⟨more, rfl⟩ := Nat.exists_eq_add_of_le' (Nat.one_le_of_lt alsoEnough)
      have behind : (tree.type type).pointee.bind (tree.typeDeclarationTo depth) =
          (tree.type type).pointee.bind (tree.typeDeclarationTo more) := by
        refine Option.bind_congr fun pointee points => ?_
        have less := lower pointee type (.pointee points)
        exact ih (by omega) (by omega)
      rw [typeDeclarationTo, typeDeclarationTo]
      simp only [behind]

theorem nonReferenceTo_eq_of_rank_lt {depth more : Nat} {type : TypeId}
    (enough : rank type < depth) (alsoEnough : rank type < more) :
    tree.nonReferenceTo depth type = tree.nonReferenceTo more type := by
  induction depth generalizing more type with
  | zero => exact absurd enough (Nat.not_lt_zero _)
  | succ depth ih =>
      obtain ⟨more, rfl⟩ := Nat.exists_eq_add_of_le' (Nat.one_le_of_lt alsoEnough)
      rw [nonReferenceTo, nonReferenceTo]
      split
      · split
        · rename_i pointee points
          have less := lower pointee type (.pointee points)
          exact ih (by omega) (by omega)
        · rfl
      · rfl

end Chains

/-! ## Agreement -/

/-- Whether a declaration belongs to the same scope in both trees. -/
def Stays (tree other : DeclTree) (id : DeclId) : Prop :=
  other.semanticParent id = tree.semanticParent id

/-- Whether a declaration belongs to one namespace in a tree and to another one in another tree. -/
def Moves (tree other : DeclTree) (region : Region) (id : DeclId) : Prop :=
  ∃ outer inner, tree.semanticParent id = some outer ∧ other.semanticParent id = some inner ∧
    (tree.decl outer).IsNamespace ∧ (other.decl inner).IsNamespace ∧
    ¬ region.wholes outer ∧ ¬ region.wholes inner

/-- Whether another tree tells of a closed region what the tree tells of it: what each declaration is,
what shows of the scopes around it, what those hold that are meant as a whole, and the types.  Among
namespaces a declaration may have moved. -/
structure Agrees (tree other : DeclTree) (region : Region) : Prop where
  closed : region.IsClosed tree
  unplaced_eq : ∀ {id : DeclId}, region.decls id →
    (other.decl id).unplaced = (tree.decl id).unplaced
  children_eq : ∀ {id : DeclId}, region.wholes id → other.children id = tree.children id
  parents : ∀ {id : DeclId}, region.decls id → tree.Stays other id ∨ tree.Moves other region id
  scopes : ∀ {id : DeclId}, region.decls id → other.scopeComponents id = tree.scopeComponents id
  type_eq : ∀ {type : TypeId}, region.types type → other.type type = tree.type type
  steps : other.types.size = tree.types.size ∨
    tree.types.size ≤ other.types.size ∧ tree.HasFiniteTypes

namespace Agrees

variable {tree other : DeclTree} {region : Region} (agrees : tree.Agrees other region)
include agrees

/-- Whatever can be told of a declaration without its place is the same. -/
theorem told_eq {α : Type} {told : Decl → α} (unplaced : ∀ decl, told decl.unplaced = told decl)
    {id : DeclId} (known : region.decls id) : told (other.decl id) = told (tree.decl id) := by
  rw [← unplaced, agrees.unplaced_eq known, unplaced]

section Told

variable {id : DeclId} (known : region.decls id)
include known

theorem kind_eq : (other.decl id).kind = (tree.decl id).kind :=
  agrees.told_eq (fun _ => rfl) known

theorem spelling_eq : (other.decl id).spelling = (tree.decl id).spelling :=
  agrees.told_eq (fun _ => rfl) known

theorem displayName_eq : (other.decl id).displayName = (tree.decl id).displayName :=
  agrees.told_eq (fun _ => rfl) known

theorem access_eq : (other.decl id).access = (tree.decl id).access :=
  agrees.told_eq (fun _ => rfl) known

theorem has_eq (flag : DeclFlag) : (other.decl id).has flag = (tree.decl id).has flag :=
  @told_eq _ _ _ agrees _ (fun decl => decl.has flag) (fun _ => rfl) id known

theorem anonymous_eq : (other.decl id).anonymous = (tree.decl id).anonymous :=
  agrees.told_eq (fun _ => rfl) known

theorem declType_eq : (other.decl id).type = (tree.decl id).type :=
  agrees.told_eq (fun _ => rfl) known

theorem resultType_eq : (other.decl id).resultType = (tree.decl id).resultType :=
  agrees.told_eq (fun _ => rfl) known

theorem underlyingType_eq : (other.decl id).underlyingType = (tree.decl id).underlyingType :=
  agrees.told_eq (fun _ => rfl) known

theorem referenced_eq : (other.decl id).referenced = (tree.decl id).referenced :=
  agrees.told_eq (fun _ => rfl) known

theorem definition_eq : (other.decl id).definition = (tree.decl id).definition :=
  agrees.told_eq (fun _ => rfl) known

theorem specializedTemplate_eq :
    (other.decl id).specializedTemplate = (tree.decl id).specializedTemplate :=
  agrees.told_eq (fun _ => rfl) known

theorem location_eq : (other.decl id).location = (tree.decl id).location :=
  agrees.told_eq (fun _ => rfl) known

theorem extent_eq : (other.decl id).extent = (tree.decl id).extent :=
  agrees.told_eq (fun _ => rfl) known

/-! ### Names -/

theorem qualifiedName_eq : other.qualifiedName id = tree.qualifiedName id := by
  rw [qualifiedName, qualifiedName, agrees.scopes known, agrees.spelling_eq known]

theorem isStd_eq : other.isStd id = tree.isStd id := by
  rw [isStd, isStd, agrees.qualifiedName_eq known, agrees.location_eq known]

/-- Whether a declaration belongs to a class or class template is the same. -/
theorem any_parent_eq {told : DeclKind → Bool} (outside : told .namespaceDecl = false)
    (root : told .unitRoot = false) :
    ((other.semanticParent id).any fun parent => told (other.decl parent).kind) =
      (tree.semanticParent id).any fun parent => told (tree.decl parent).kind := by
  have silent : ∀ {decl : Decl}, decl.IsNamespace → told decl.kind = false := by
    rintro decl (kind | kind) <;> rwa [kind]
  rcases agrees.parents known with stays | ⟨outer, inner, here, there, isOuter, isInner, -⟩
  · rw [stays]
    cases above : tree.semanticParent id with
    | none => rfl
    | some parent =>
        rw [Option.any_some, Option.any_some, agrees.kind_eq (agrees.closed.parent above)]
  · rw [here, there, Option.any_some, Option.any_some, silent isOuter, silent isInner]

theorem inClassTemplate_eq : other.inClassTemplate id = tree.inClassTemplate id :=
  agrees.any_parent_eq known rfl rfl

/-- A class template is no namespace; so what belongs to one stays there. -/
theorem parent_of_inClassTemplate (inside : tree.inClassTemplate id = true) :
    other.semanticParent id = tree.semanticParent id ∧
      ∀ parent, tree.semanticParent id = some parent → region.wholes parent := by
  have solid : ∀ parent, tree.semanticParent id = some parent →
      ¬ (tree.decl parent).IsNamespace := by
    intro parent above
    rw [inClassTemplate, above] at inside
    rintro (kind | kind) <;> rw [Option.any_some, kind] at inside <;> cases inside
  refine ⟨?_, fun parent above =>
    agrees.closed.whole (agrees.closed.parent above) (solid parent above)⟩
  rcases agrees.parents known with stays | ⟨outer, -, here, -, isOuter, -⟩
  · exact stays
  · exact absurd isOuter (solid outer here)

end Told

/-- The name of the scope around a declaration that stays there. -/
theorem parentName_eq {id : DeclId} (stays : tree.Stays other id) :
    (other.semanticParent id).map other.qualifiedName =
      (tree.semanticParent id).map tree.qualifiedName := by
  rw [stays]
  cases above : tree.semanticParent id with
  | none => rfl
  | some parent =>
      rw [Option.map_some, Option.map_some, agrees.qualifiedName_eq (agrees.closed.parent above)]

/-! ### Contents -/

section Contents

variable {id : DeclId} (whole : region.wholes id)
include whole

theorem childrenOfKind_eq (p : DeclKind → Bool) :
    other.childrenOfKind p id = tree.childrenOfKind p id := by
  rw [childrenOfKind, childrenOfKind, agrees.children_eq whole]
  refine List.filter_congr fun child member => ?_
  rw [agrees.kind_eq (agrees.closed.child member)]

theorem parameters_eq : other.parameters id = tree.parameters id :=
  agrees.childrenOfKind_eq whole _

theorem templateParameters_eq : other.templateParameters id = tree.templateParameters id :=
  agrees.childrenOfKind_eq whole _

theorem parameterNames_eq : other.parameterNames id = tree.parameterNames id := by
  rw [parameterNames, parameterNames, agrees.templateParameters_eq whole]
  exact List.map_congr_left fun param member =>
    agrees.spelling_eq (agrees.closed.childOfKind member)

theorem qualifiedDisplayName_eq : other.qualifiedDisplayName id = tree.qualifiedDisplayName id := by
  simp only [qualifiedDisplayName, agrees.qualifiedName_eq (agrees.closed.decl whole),
    agrees.parameterNames_eq whole]

end Contents

/-! ### Types -/

section Types

variable {type : TypeId} (known : region.types type)
include known

theorem canonical_eq : other.canonical type = tree.canonical type := by
  rw [canonical, canonical, agrees.type_eq known]

theorem canonicalSpelling_eq : other.canonicalSpelling type = tree.canonicalSpelling type := by
  rw [canonicalSpelling, canonicalSpelling, agrees.canonical_eq known,
    agrees.type_eq (agrees.closed.canonical known)]

omit known in
/-- What takes no more steps than there are types takes no more in the other tree. -/
theorem steps_eq {α : Type} {answer : Nat → TypeId → α}
    (enough : ∀ {rank : TypeId → Nat},
      (∀ inner outer, tree.IsPart inner outer → rank inner < rank outer) →
      ∀ {depth more type}, rank type < depth → rank type < more →
        answer depth type = answer more type) (type : TypeId) :
    answer (other.types.size + 1) type = answer (tree.types.size + 1) type := by
  rcases agrees.steps with same | ⟨grows, rank, bounded, lower⟩
  · rw [same]
  · have within := bounded type
    exact enough lower (Nat.lt_succ_of_le (within.trans grows)) (Nat.lt_succ_of_le within)

theorem typeDeclaration_eq : other.typeDeclaration type = tree.typeDeclaration type := by
  have each : ∀ depth type, region.types type →
      other.typeDeclarationTo depth type = tree.typeDeclarationTo depth type := by
    intro depth
    induction depth with
    | zero => exact fun _ _ => rfl
    | succ depth ih =>
        intro type known
        have behind : (tree.type type).pointee.bind (other.typeDeclarationTo depth) =
            (tree.type type).pointee.bind (tree.typeDeclarationTo depth) :=
          Option.bind_congr fun pointee points => ih pointee (agrees.closed.pointee known points)
        rw [typeDeclarationTo, typeDeclarationTo, agrees.type_eq known]
        simp only [behind]
  rw [typeDeclaration, typeDeclaration, each _ _ known]
  exact agrees.steps_eq typeDeclarationTo_eq_of_rank_lt type

theorem nonReference_eq : other.nonReference type = tree.nonReference type := by
  have each : ∀ depth type, region.types type →
      other.nonReferenceTo depth type = tree.nonReferenceTo depth type := by
    intro depth
    induction depth with
    | zero => exact fun _ _ => rfl
    | succ depth ih =>
        intro type known
        rw [nonReferenceTo, nonReferenceTo, agrees.type_eq known]
        split
        · split
          · rename_i pointee points
            exact ih pointee (agrees.closed.pointee known points)
          · rfl
        · rfl
  rw [nonReference, nonReference, each _ _ known]
  exact agrees.steps_eq nonReferenceTo_eq_of_rank_lt type

end Types

end Agrees

end DeclTree

end Bindery
