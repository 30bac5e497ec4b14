import Bindery.Proofs.Tree.Agreement

/-!
# Forms of types

The form of a type is the type without the names of typedefs and the names that sources write.  A
type written by name gets the form of what it stands for, and a type around one that has another
form gets that form with the same around it; every other type is its own form.
-/

set_option autoImplicit false

namespace Bindery

/-- Pointers, references and arrays. -/
def TypeKind.isAround (kind : TypeKind) : Bool :=
  kind == .pointer || kind.isReference || kind.isArray

/-- The kinds of types that are written by name. -/
def TypeKind.isName (kind : TypeKind) : Bool :=
  kind == .elaborated || kind == .typedefName

namespace CppType

/-- What a pointer or a reference refers to, and the element of an array. -/
def around? (type : CppType) : Option TypeId :=
  if type.kind.isAround then type.pointee else none

/-- The type with a `const` more, or as it is. -/
def constIf (const : Bool) (type : CppType) : CppType :=
  { type with isConst := type.isConst || const }

@[simp] theorem constIf_false (type : CppType) : type.constIf false = type := by
  rw [constIf, Bool.or_false]

theorem constIf_constIf (type : CppType) (first second : Bool) :
    (type.constIf first).constIf second = type.constIf (first || second) := by
  rw [constIf, constIf, constIf, Bool.or_assoc]

theorem constIf_true (type : CppType) : type.constIf true = { type with isConst := true } := by
  rw [constIf, Bool.or_true]

theorem mem_links_of_pointee {type : CppType} {inner : TypeId}
    (points : type.pointee = some inner) : inner ∈ type.links := by
  simp [links, points]

theorem mem_links_of_canonical {type : CppType} {core : TypeId}
    (canonical : type.canonical = some core) : core ∈ type.links := by
  simp [links, canonical]

theorem around?_of_isAround {type : CppType} (around : type.kind.isAround = true) :
    type.around? = type.pointee :=
  if_pos around

theorem around?_eq_some_iff {type : CppType} {inner : TypeId} :
    type.around? = some inner ↔ type.kind.isAround = true ∧ type.pointee = some inner := by
  rw [around?, Option.ite_none_right_eq_some]

end CppType

namespace DeclTree

/-- What a type written by name stands for: the type under its full name, and for the name of a
typedef the type that the typedef gives. -/
def standsFor? (tree : DeclTree) (type : CppType) : Option TypeId :=
  match type.kind with
  | .elaborated => type.pointee
  | .typedefName => type.declaration.bind fun id => (tree.decl id).underlyingType
  | _ => none

theorem standsFor?_of_not_isName {tree : DeclTree} {type : CppType}
    (unnamed : type.kind.isName = false) : tree.standsFor? type = none := by
  unfold standsFor?
  cases kind : type.kind <;> first | rfl | (rw [kind] at unnamed; cases unnamed)

theorem standsFor?_of_isAround {tree : DeclTree} {type : CppType}
    (around : type.kind.isAround = true) : tree.standsFor? type = none := by
  refine standsFor?_of_not_isName ?_
  cases kind : type.kind <;> first | rfl | (rw [kind] at around; cases around)

theorem standsFor?_ne_of_around? {tree : DeclTree} {type : CppType} {inner meant : TypeId}
    (around : type.around? = some inner) : tree.standsFor? type ≠ some meant := by
  rw [standsFor?_of_isAround (CppType.around?_eq_some_iff.mp around).1]
  exact (Option.some_ne_none meant).symm

/-- The ways in which a type comes to its canonical form. -/
inductive IsFormed (tree : DeclTree) (type : CppType) : Prop
  | plain (own : type.canonical = none) (unnamed : tree.standsFor? type = none)
      (single : type.around? = none)
  | around {inner : TypeId} (own : type.canonical = none) (around : type.around? = some inner)
      (core : (tree.type inner).canonical = none)
  | aroundName {inner core form : TypeId} (around : type.around? = some inner)
      (behind : (tree.type inner).canonical = some core) (canonical : type.canonical = some form)
      (same : ∃ spelling, tree.type form =
        { type with spelling, pointee := some core, arraySize := none, canonical := none })
      (sized : type.arraySize.isSome = (type.kind == .constantArray))
  | name {meant core form : TypeId} (stands : tree.standsFor? type = some meant)
      (behind : tree.canonical meant = core) (canonical : type.canonical = some form)
      (same : tree.type form = (tree.type core).constIf type.isConst)

namespace IsFormed

variable {tree : DeclTree} {type : CppType} (formed : tree.IsFormed type)
include formed

theorem own_of_plain (unnamed : tree.standsFor? type = none) (single : type.around? = none) :
    type.canonical = none := by
  cases formed with
  | plain own | around own => exact own
  | aroundName around => cases single.symm.trans around
  | name stands => cases unnamed.symm.trans stands

/-- A type around another is its own form if that one is; else its form is around that one's. -/
theorem of_around {inner : TypeId} (around : type.around? = some inner) :
    (type.canonical = none ∧ (tree.type inner).canonical = none) ∨
      ∃ core form, (tree.type inner).canonical = some core ∧ type.canonical = some form ∧
        (∃ spelling, tree.type form =
          { type with spelling, pointee := some core, arraySize := none, canonical := none }) ∧
        type.arraySize.isSome = (type.kind == .constantArray) := by
  cases formed with
  | plain _ _ single => cases single.symm.trans around
  | around own same core =>
      cases around.symm.trans same
      exact .inl ⟨own, core⟩
  | aroundName same behind canonical form sized =>
      cases around.symm.trans same
      exact .inr ⟨_, _, behind, canonical, form, sized⟩
  | name stands =>
      exact absurd stands (standsFor?_ne_of_around? around)

theorem of_name {meant : TypeId} (stands : tree.standsFor? type = some meant) :
    ∃ form, type.canonical = some form ∧
      tree.type form = (tree.type (tree.canonical meant)).constIf type.isConst := by
  cases formed with
  | plain _ unnamed => cases unnamed.symm.trans stands
  | around _ around | aroundName around =>
      exact absurd stands (standsFor?_ne_of_around? around)
  | name same behind canonical form =>
      cases stands.symm.trans same
      exact ⟨_, canonical, behind ▸ form⟩

end IsFormed

/-- Whether a type may have the place `id`, the first `bound` declarations being there: it leads to
earlier types, stands for one of them, and has come to its form. -/
structure IsMade (tree : DeclTree) (bound : Nat) (id : TypeId) (type : CppType) : Prop where
  earlier : ∀ {inner : TypeId}, inner ∈ type.links → inner < id
  declared : ∀ {decl : DeclId}, type.declaration = some decl → decl < bound
  stands : ∀ {meant : TypeId}, tree.standsFor? type = some meant → meant < id
  formed : tree.IsFormed type

namespace IsMade

variable {tree : DeclTree} {bound : Nat} {id : TypeId} {type : CppType}

theorem later (made : tree.IsMade bound id type) {more : TypeId} (le : id ≤ more) {wider : Nat}
    (bound_le : bound ≤ wider) : tree.IsMade wider more type :=
  ⟨fun leads => (made.earlier leads).trans_le le,
    fun known => (made.declared known).trans_le bound_le,
    fun stands => (made.stands stands).trans_le le, made.formed⟩

/-- A type stays made as long as earlier types stay and the declarations give what they gave. -/
theorem of_agree (made : tree.IsMade bound id type) {other : DeclTree}
    (below : ∀ inner < id, tree.canonical inner < id)
    (types : ∀ inner < id, other.type inner = tree.type inner)
    (decls : ∀ decl < bound, (other.decl decl).underlyingType = (tree.decl decl).underlyingType) :
    other.IsMade bound id type := by
  have stands : other.standsFor? type = tree.standsFor? type := by
    unfold standsFor?
    split
    · rfl
    · exact Option.bind_congr fun decl known => decls decl (made.declared known)
    · rfl
  refine ⟨made.earlier, made.declared, fun meant => made.stands (stands ▸ meant), ?_⟩
  have pointee {inner : TypeId} (around : type.around? = some inner) : inner < id :=
    made.earlier (CppType.mem_links_of_pointee (CppType.around?_eq_some_iff.mp around).2)
  have canonical {form : TypeId} (is : type.canonical = some form) : form < id :=
    made.earlier (CppType.mem_links_of_canonical is)
  cases made.formed with
  | plain own unnamed single => exact .plain own (stands.trans unnamed) single
  | around own around core => exact .around own around (types _ (pointee around) ▸ core)
  | aroundName around behind is same sized =>
      exact .aroundName around (types _ (pointee around) ▸ behind) is
        (same.imp fun _ => (types _ (canonical is)).trans) sized
  | @name meant core form named behind is same =>
      have before := made.stands named
      have core_lt : core < id := behind ▸ below meant before
      have stays : other.canonical meant = core := by
        rw [DeclTree.canonical, types meant before]
        exact behind
      refine .name (stands.trans named) stays is ?_
      rw [types form (canonical is), types core core_lt]
      exact same

/-- A type that is neither around another nor written by name is its own form. -/
theorem of_plain (single : type.kind.isAround = false) (unnamed : type.kind.isName = false)
    (own : type.canonical = none) (earlier : ∀ inner ∈ type.links, inner < id)
    (declared : ∀ decl, type.declaration = some decl → decl < bound) :
    tree.IsMade bound id type where
  earlier := earlier _
  declared := declared _
  stands := fun stands => nomatch (standsFor?_of_not_isName unnamed).symm.trans stands
  formed := .plain own (standsFor?_of_not_isName unnamed) (by rw [CppType.around?, single]; rfl)

/-- A type that tells of no other may stand anywhere. -/
theorem of_leaf {kind : TypeKind} {declaration : Option DeclId} (spelling : String)
    (single : kind.isAround = false) (unnamed : kind.isName = false)
    (declared : ∀ decl, declaration = some decl → decl < bound) :
    tree.IsMade bound id { CppType.make kind spelling with declaration } :=
  of_plain single unnamed rfl (fun _ leads => (List.not_mem_nil leads).elim) declared

section

variable {kind : TypeKind} (single : kind.isAround = true) {inner : TypeId} (lt : inner < id)
  (spelling : String)
include single lt

/-- A type around one that is its own form. -/
theorem of_around (size : Option Nat) (own : (tree.type inner).canonical = none) :
    tree.IsMade bound id
      { CppType.make kind spelling with pointee := some inner, arraySize := size } := by
  refine ⟨fun {other} leads => ?_, nofun, fun stands => ?_, ?_⟩
  · cases List.mem_singleton.mp leads
    exact lt
  · cases (standsFor?_of_isAround single).symm.trans stands
  · exact .around rfl (CppType.around?_of_isAround single) own

/-- A type around one that has another form. -/
theorem of_aroundName {size : Option Nat} (sized : size.isSome = (kind == .constantArray))
    {core form : TypeId} (behind : (tree.type inner).canonical = some core) (before : form < id)
    {formSpelling : String}
    (same : tree.type form = { CppType.make kind formSpelling with pointee := some core }) :
    tree.IsMade bound id
      { CppType.make kind spelling with
        pointee := some inner, arraySize := size, canonical := some form } := by
  refine ⟨fun {other} leads => ?_, nofun, fun stands => ?_, ?_⟩
  · have either : other = inner ∨ other = form := by
      simpa [CppType.links, CppType.make] using leads
    rcases either with rfl | rfl
    · exact lt
    · exact before
  · cases (standsFor?_of_isAround single).symm.trans stands
  · exact .aroundName (CppType.around?_of_isAround single) behind rfl ⟨formSpelling, same⟩ sized

end

/-- A type that is its own form may be made constant. -/
theorem const (made : tree.IsMade bound id type) (own : type.canonical = none) :
    tree.IsMade bound id { type with isConst := true } := by
  refine ⟨made.earlier, made.declared, made.stands, ?_⟩
  cases made.formed with
  | plain _ unnamed single => exact .plain own unnamed single
  | around _ around core => exact .around own around core
  | aroundName _ _ is | name _ _ is => rw [own] at is; cases is

/-- Another type may be made constant if its form is. -/
theorem constWith (made : tree.IsMade bound id type) {core form more : TypeId} (le : id ≤ more)
    (is : type.canonical = some core) (lt : form < more)
    (same : tree.type form = { tree.type core with isConst := true }) :
    tree.IsMade bound more { type with isConst := true, canonical := some form } := by
  refine ⟨fun {inner} leads => ?_, made.declared,
    fun stands => (made.stands stands).trans_le le, ?_⟩
  · have either : inner ∈ type.links ∨ inner = form := by
      simp only [CppType.links, List.mem_append, Option.mem_toList, Option.some.injEq] at leads ⊢
      tauto
    rcases either with old | rfl
    · exact (made.earlier old).trans_le le
    · exact lt
  · cases made.formed with
    | plain own | around own => rw [own] at is; cases is
    | aroundName around behind own formed sized =>
        cases own.symm.trans is
        obtain ⟨spelling, formed⟩ := formed
        exact .aroundName around behind rfl ⟨spelling, by rw [same, formed]⟩ sized
    | name stands behind own formed =>
        cases own.symm.trans is
        refine .name stands behind rfl ?_
        rw [same, formed, ← CppType.constIf_true, CppType.constIf_constIf, Bool.or_true]

end IsMade

theorem underlyingType_pushDecl {tree : DeclTree} {added : Decl}
    (none : added.underlyingType = none) (id : DeclId) :
    ((tree.pushDecl added).1.decl id).underlyingType = (tree.decl id).underlyingType := by
  rw [decl_pushDecl]
  split
  case isTrue last =>
    rw [none, decl_of_size_le last.ge]
    rfl
  case isFalse => rfl

theorem type_pushType (tree : DeclTree) (added : CppType) (id : TypeId) :
    (tree.pushType added).1.type id = if id = tree.types.size then added else tree.type id := by
  simp only [pushType, type, Array.getD_eq_getD_getElem?, Array.getElem?_push]
  split <;> rfl

theorem type_pushType_self (tree : DeclTree) (added : CppType) :
    (tree.pushType added).1.type tree.types.size = added := by
  rw [type_pushType, if_pos rfl]

theorem type_pushType_of_ne {tree : DeclTree} {added : CppType} {id : TypeId}
    (old : id ≠ tree.types.size) : (tree.pushType added).1.type id = tree.type id := by
  rw [type_pushType, if_neg old]

theorem modifyType_pushType (tree : DeclTree) (added : CppType) (change : CppType → CppType) :
    (tree.pushType added).1.modifyType tree.types.size change =
      (tree.pushType (change added)).1 := by
  have same : (tree.types.push added).modify tree.types.size change =
      tree.types.push (change added) := by
    refine Array.ext (by simp) fun place _ inside => ?_
    rw [Array.getElem_modify, Array.getElem_push, Array.getElem_push]
    rw [Array.size_push] at inside
    split
    case isTrue last => rw [dif_neg last.not_gt, dif_neg last.not_gt]
    case isFalse old => rw [dif_pos (by omega), dif_pos (by omega)]
  exact congrArg (DeclTree.mk tree.decls) same

@[simp] theorem types_size_pushType (tree : DeclTree) (added : CppType) :
    (tree.pushType added).1.types.size = tree.types.size + 1 :=
  Array.size_push ..

end DeclTree

namespace TreeBuilder

/-- Whether all types of a tree are made from earlier ones and no declaration gives a type that is
not there, the first `bound` declarations being settled. -/
structure IsTyped (bound : Nat) (builder : TreeBuilder) : Prop where
  settled : bound ≤ builder.tree.size
  made : ∀ {id : TypeId}, id < builder.tree.types.size →
    builder.tree.IsMade bound id (builder.tree.type id)
  gives : ∀ {id : DeclId} {type : TypeId},
    (builder.tree.decl id).underlyingType = some type → type < builder.tree.types.size
  builtin : ∀ {name : String} {id : TypeId},
    builder.builtins.lookup name = some id → id < builder.tree.types.size
  record : ∀ {decl : DeclId} {id : TypeId},
    builder.records.lookup decl = some id → id < builder.tree.types.size

theorem start_isTyped (path : String) : (start path).IsTyped (start path).tree.size := by
  refine ⟨Nat.le_refl _, fun inside => absurd inside (Nat.not_lt_zero _), fun {id type} gives => ?_,
    nofun, nofun⟩
  cases id <;> cases gives

namespace IsTyped

variable {bound : Nat} {builder : TreeBuilder} (typed : builder.IsTyped bound)
include typed

theorem lt_of_mem_links {id inner : TypeId} (leads : inner ∈ (builder.tree.type id).links) :
    inner < id := by
  by_cases inside : id < builder.tree.types.size
  · exact (typed.made inside).earlier leads
  · rw [DeclTree.type_of_size_le (Nat.le_of_not_lt inside)] at leads
    cases leads

theorem canonical_le (id : TypeId) : builder.tree.canonical id ≤ id := by
  rw [DeclTree.canonical]
  cases canonical : (builder.tree.type id).canonical with
  | none => exact Nat.le_refl _
  | some form => exact (typed.lt_of_mem_links (CppType.mem_links_of_canonical canonical)).le

/-- The canonical form of a type is its own form. -/
theorem canonical_canonical (id : TypeId) :
    (builder.tree.type (builder.tree.canonical id)).canonical = none := by
  induction id using Nat.strong_induction_on with
  | h id ih =>
      cases is : (builder.tree.type id).canonical with
      | none => rwa [DeclTree.canonical, is]
      | some form =>
          have canonical : builder.tree.canonical id = form := by rw [DeclTree.canonical, is]; rfl
          have inside : id < builder.tree.types.size := by
            by_contra outside
            rw [DeclTree.type_of_size_le (Nat.le_of_not_lt outside)] at is
            cases is
          have made := typed.made inside
          rw [canonical]
          cases made.formed with
          | plain own | around own => rw [own] at is; cases is
          | aroundName _ _ own same =>
              cases own.symm.trans is
              obtain ⟨spelling, same⟩ := same
              rw [same]
          | @name meant core _ stands behind own same =>
              cases own.symm.trans is
              rw [same, ← behind]
              exact ih meant (made.stands stands)

theorem core_of_canonical {id core : TypeId} (is : (builder.tree.type id).canonical = some core) :
    core < id ∧ (builder.tree.type core).canonical = none := by
  have canonical : builder.tree.canonical id = core := by
    rw [DeclTree.canonical, is]
    rfl
  exact ⟨typed.lt_of_mem_links (CppType.mem_links_of_canonical is),
    canonical ▸ typed.canonical_canonical id⟩

theorem wider {more : Nat} (le : bound ≤ more) (settled : more ≤ builder.tree.size) :
    builder.IsTyped more :=
  ⟨settled, fun inside => (typed.made inside).later (Nat.le_refl _) le, typed.gives, typed.builtin,
    typed.record⟩

/-- Declarations may be added and changed as long as those that are settled give the types they
gave. -/
theorem of_decls {later : TreeBuilder} (settled : bound ≤ later.tree.size)
    (types : later.tree.types = builder.tree.types)
    (same : ∀ id < bound, (later.tree.decl id).underlyingType =
      (builder.tree.decl id).underlyingType)
    (gives : ∀ {id type}, (later.tree.decl id).underlyingType = some type →
      type < builder.tree.types.size)
    (builtins : later.builtins = builder.builtins) (records : later.records = builder.records) :
    later.IsTyped bound := by
  have type (id : TypeId) : later.tree.type id = builder.tree.type id := by
    rw [DeclTree.type, types]
    rfl
  refine ⟨settled, fun {id} inside => ?_, fun found => types ▸ gives found,
    fun found => types ▸ typed.builtin (builtins ▸ found),
    fun found => types ▸ typed.record (records ▸ found)⟩
  rw [type]
  exact (typed.made (types ▸ inside)).of_agree
    (fun inner before => (typed.canonical_le inner).trans_lt before) (fun inner _ => type inner) same

/-- What is made stays made when a type is added. -/
theorem isMade_pushType (added : CppType) {id : TypeId} (inside : id ≤ builder.tree.types.size)
    {type : CppType} (made : builder.tree.IsMade bound id type) :
    (builder.tree.pushType added).1.IsMade bound id type :=
  made.of_agree (fun inner before => (typed.canonical_le inner).trans_lt before)
    (fun _ before => DeclTree.type_pushType_of_ne (before.trans_le inside).ne) fun _ _ => rfl

/-- A type that is made from those that are there may be added. -/
theorem pushType {type : CppType}
    (made : builder.tree.IsMade bound builder.tree.types.size type) :
    { builder with tree := (builder.tree.pushType type).1 }.IsTyped bound := by
  have grows : builder.tree.types.size < (builder.tree.pushType type).1.types.size :=
    (DeclTree.types_size_pushType ..).ge
  refine ⟨typed.settled, fun {id} inside => ?_, fun gives => (typed.gives gives).trans grows,
    fun found => (typed.builtin found).trans grows, fun found => (typed.record found).trans grows⟩
  change id < (builder.tree.pushType type).1.types.size at inside
  rw [DeclTree.types_size_pushType] at inside
  change (builder.tree.pushType type).1.IsMade bound id ((builder.tree.pushType type).1.type id)
  rw [DeclTree.type_pushType]
  split
  case isTrue last => exact typed.isMade_pushType type last.le (last ▸ made)
  case isFalse old =>
    have before := Nat.lt_of_le_of_ne (Nat.le_of_lt_succ inside) old
    exact typed.isMade_pushType type before.le (typed.made before)

end IsTyped

end TreeBuilder

end Bindery
