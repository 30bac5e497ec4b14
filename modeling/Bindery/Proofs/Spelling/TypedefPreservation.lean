import Bindery.Proofs.Spelling.Names
import Bindery.Tree.Build
import Mathlib.Data.Fintype.Card

/-!
# Preservation of typedefs

A type that is built from a typedef by references, pointers and arrays is spelled with the name of
the typedef.  What the typedef stands for does not show: two trees that differ only there, and in
the canonical forms that follow from it, spell the type alike.
-/

set_option autoImplicit false

namespace Bindery

namespace DeclTree

/-! ## Types built from a declaration -/

/-- The types that reach a declaration by name through references, pointers and arrays, with the
number of steps that it takes. -/
inductive BuiltIn (tree : DeclTree) (target : DeclId) : Nat → TypeId → Prop
  | direct {type : TypeId} (byName : (tree.type type).kind.isByName = true)
      (declares : (tree.type type).declaration = some target) : BuiltIn tree target 0 type
  | written {type inner : TypeId} {steps : Nat} (kind : (tree.type type).kind = .elaborated)
      (undeclared : (tree.type type).declaration = none)
      (pointee : (tree.type type).pointee = some inner)
      (byName : (tree.type inner).kind.isByName = true) (built : BuiltIn tree target steps inner) :
      BuiltIn tree target (steps + 1) type
  | layer {type inner : TypeId} {steps : Nat} (kind : (tree.type type).kind.isLayer = true)
      (pointee : (tree.type type).pointee = some inner) (built : BuiltIn tree target steps inner) :
      BuiltIn tree target (steps + 1) type

/-- The types that reach a declaration by name through references, pointers and arrays. -/
def BuiltFrom (tree : DeclTree) (target : DeclId) (type : TypeId) : Prop :=
  ∃ steps, tree.BuiltIn target steps type

variable {tree : DeclTree} {target : DeclId}

theorem BuiltIn.steps_unique {steps : Nat} {type : TypeId} (built : tree.BuiltIn target steps type) :
    ∀ {other : Nat}, tree.BuiltIn target other type → other = steps := by
  induction built with
  | direct byName declares =>
      intro other again
      cases again with
      | direct => rfl
      | written _ undeclared => simp [declares] at undeclared
      | layer kind => simp [TypeKind.isByName_eq_false_of_isLayer kind] at byName
  | written kind undeclared pointee byName built ih =>
      intro other again
      cases again with
      | direct _ declares => simp [undeclared] at declares
      | written _ _ same _ inner =>
          cases pointee.symm.trans same
          exact congrArg (· + 1) (ih inner)
      | layer layered => simp [kind, TypeKind.isLayer] at layered
  | layer kind pointee built ih =>
      intro other again
      cases again with
      | direct byName => simp [TypeKind.isByName_eq_false_of_isLayer kind] at byName
      | written elaborated => simp [elaborated, TypeKind.isLayer] at kind
      | layer _ same inner =>
          cases pointee.symm.trans same
          exact congrArg (· + 1) (ih inner)

theorem BuiltIn.lt_size {steps : Nat} {type : TypeId} (built : tree.BuiltIn target steps type) :
    type < tree.types.size := by
  by_contra outside
  have blank : tree.type type = CppType.make .unexposed "" := by
    simp [DeclTree.type, Array.getD, outside]
  cases built with
  | direct _ declares => simp [blank, CppType.make] at declares
  | written _ _ pointee => simp [blank, CppType.make] at pointee
  | layer _ pointee => simp [blank, CppType.make] at pointee

theorem BuiltIn.exists_of_le {steps : Nat} {type : TypeId}
    (built : tree.BuiltIn target steps type) :
    ∀ fewer ≤ steps, ∃ inner, tree.BuiltIn target fewer inner := by
  induction built with
  | direct byName declares =>
      intro fewer within
      obtain rfl := Nat.le_zero.mp within
      exact ⟨_, .direct byName declares⟩
  | written kind undeclared pointee byName built ih =>
      intro fewer within
      rcases Nat.le_succ_iff.mp within with inside | rfl
      · exact ih fewer inside
      · exact ⟨_, .written kind undeclared pointee byName built⟩
  | layer kind pointee built ih =>
      intro fewer within
      rcases Nat.le_succ_iff.mp within with inside | rfl
      · exact ih fewer inside
      · exact ⟨_, .layer kind pointee built⟩

/-- The types on the way to the declaration are all different, so that there are more types in the
tree than steps to take. -/
theorem BuiltIn.steps_lt_size {steps : Nat} {type : TypeId}
    (built : tree.BuiltIn target steps type) : steps < tree.types.size := by
  have passed : ∀ place : Fin (steps + 1), ∃ inner, tree.BuiltIn target place inner :=
    fun place => built.exists_of_le place (Nat.le_of_lt_succ place.isLt)
  choose visit visited using passed
  let position (place : Fin (steps + 1)) : Fin tree.types.size :=
    ⟨visit place, (visited place).lt_size⟩
  have injective : Function.Injective position := by
    intro first second same
    have equal : visit first = visit second := congrArg Fin.val same
    have reached := visited second
    rw [← equal] at reached
    exact Fin.ext ((visited first).steps_unique reached).symm
  have count := Fintype.card_le_of_injective position injective
  rwa [Fintype.card_fin, Fintype.card_fin] at count

/-- A list with the names of the declaration and with every type around one of its members has all
types built from the declaration. -/
theorem BuiltIn.mem_of_closed {types : List TypeId}
    (closed : ∀ type < tree.types.size,
      ((tree.type type).declaration = some target → type ∈ types) ∧
        ∀ inner ∈ types, (tree.type type).pointee = some inner → type ∈ types)
    {steps : Nat} {type : TypeId} (built : tree.BuiltIn target steps type) : type ∈ types := by
  have inside := built.lt_size
  induction built with
  | direct _ declares => exact (closed _ inside).1 declares
  | written _ _ pointee _ built ih => exact (closed _ inside).2 _ (ih built.lt_size) pointee
  | layer _ pointee built ih => exact (closed _ inside).2 _ (ih built.lt_size) pointee

theorem BuiltIn.typeDeclarationTo_eq {steps : Nat} {type : TypeId}
    (built : tree.BuiltIn target steps type) :
    ∀ {depth : Nat}, (tree.type type).kind.isByName = true → steps < depth →
      tree.typeDeclarationTo depth type = some target := by
  induction built with
  | direct _ declares =>
      intro depth byName enough
      obtain ⟨depth, rfl⟩ := Nat.exists_eq_succ_of_ne_zero (Nat.ne_zero_of_lt enough)
      rw [typeDeclarationTo]
      split <;> simp [declares]
  | written kind undeclared pointee byNameInside built ih =>
      intro depth byName enough
      obtain ⟨depth, rfl⟩ := Nat.exists_eq_succ_of_ne_zero (Nat.ne_zero_of_lt enough)
      have inside := ih byNameInside (Nat.lt_of_succ_lt_succ enough)
      simp [typeDeclarationTo, kind, undeclared, pointee, inside]
  | layer kind pointee built ih =>
      intro depth byName
      simp [TypeKind.isByName_eq_false_of_isLayer kind] at byName

/-! ## Trees that differ in a typedef -/

/-- The trees differ in what a typedef stands for.  On the types built from it they agree but for
the canonical forms. -/
structure DifferOnlyIn (target : DeclId) (left right : DeclTree) : Prop where
  decls : ∃ underlying, right.decls =
    left.decls.modify target fun decl => { decl with underlyingType := underlying }
  types : ∀ type, left.BuiltFrom target type →
    { right.type type with canonical := none } = { left.type type with canonical := none }

/-- A declaration that names no function type: no type built from it is one in canonical form. -/
def NamesNoFunction (tree : DeclTree) (target : DeclId) : Prop :=
  ∀ type, tree.BuiltFrom target type → (tree.type (tree.canonical type)).kind ≠ .functionProto

/-- Declarations that agree but for what typedefs stand for. -/
structure SameDecls (left right : DeclTree) : Prop where
  size : right.size = left.size
  decl : ∀ id, { right.decl id with underlyingType := none } =
    { left.decl id with underlyingType := none }

namespace SameDecls

variable {left right : DeclTree}

theorem kind (same : SameDecls left right) (id : DeclId) :
    (right.decl id).kind = (left.decl id).kind :=
  congrArg (·.kind) (same.decl id)

theorem spelling (same : SameDecls left right) (id : DeclId) :
    (right.decl id).spelling = (left.decl id).spelling :=
  congrArg (·.spelling) (same.decl id)

theorem flags (same : SameDecls left right) (id : DeclId) :
    (right.decl id).flags = (left.decl id).flags :=
  congrArg (·.flags) (same.decl id)

theorem location (same : SameDecls left right) (id : DeclId) :
    (right.decl id).location = (left.decl id).location :=
  congrArg (·.location) (same.decl id)

theorem children (same : SameDecls left right) (id : DeclId) :
    right.children id = left.children id :=
  congrArg (·.children) (same.decl id)

theorem semanticParent (same : SameDecls left right) (id : DeclId) :
    right.semanticParent id = left.semanticParent id :=
  congrArg (·.semanticParent) (same.decl id)

theorem anonymous (same : SameDecls left right) (id : DeclId) :
    (right.decl id).anonymous = (left.decl id).anonymous := by
  rw [Decl.anonymous, Decl.anonymous, Decl.has, Decl.has, same.flags, same.spelling]

theorem ancestorsTo (same : SameDecls left right) (depth : Nat) :
    ∀ id, right.ancestorsTo depth id = left.ancestorsTo depth id := by
  induction depth with
  | zero => exact fun _ => rfl
  | succ depth ih =>
      intro id
      rw [DeclTree.ancestorsTo, DeclTree.ancestorsTo, same.semanticParent]
      cases left.semanticParent id with
      | none => rfl
      | some parent => exact congrArg (parent :: ·) (ih parent)

theorem isTransparent (same : SameDecls left right) (id : DeclId) :
    DeclTree.isTransparent (right.decl id) = DeclTree.isTransparent (left.decl id) := by
  rw [DeclTree.isTransparent, DeclTree.isTransparent, same.kind, same.anonymous, Decl.has,
    Decl.has, same.flags]

theorem scopeComponents (same : SameDecls left right) (id : DeclId) :
    right.scopeComponents id = left.scopeComponents id := by
  have names : ∀ ids : List DeclId,
      ((ids.map right.decl).filter fun decl => !DeclTree.isTransparent decl).map (·.spelling) =
        ((ids.map left.decl).filter fun decl => !DeclTree.isTransparent decl).map
          (·.spelling) := by
    intro ids
    induction ids with
    | nil => rfl
    | cons id ids ih =>
        rw [List.map_cons, List.map_cons, List.filter_cons, List.filter_cons,
          same.isTransparent]
        cases DeclTree.isTransparent (left.decl id) <;> simp [ih, same.spelling]
  rw [DeclTree.scopeComponents, DeclTree.scopeComponents, DeclTree.ancestors, DeclTree.ancestors,
    same.ancestorsTo, same.size, List.map_reverse, List.map_reverse, names]

theorem qualifiedName (same : SameDecls left right) (id : DeclId) :
    right.qualifiedName id = left.qualifiedName id := by
  rw [DeclTree.qualifiedName, DeclTree.qualifiedName, same.scopeComponents, same.spelling]

theorem parameterNames (same : SameDecls left right) (id : DeclId) :
    right.parameterNames id = left.parameterNames id := by
  have isParameter : (fun child => (right.decl child).kind.isTemplateParameter) =
      fun child => (left.decl child).kind.isTemplateParameter :=
    funext fun child => congrArg _ (same.kind child)
  rw [DeclTree.parameterNames, DeclTree.parameterNames, DeclTree.templateParameters,
    DeclTree.templateParameters, childrenOfKind, childrenOfKind, same.children, isParameter]
  exact List.map_congr_left fun child _ => same.spelling child

theorem qualifiedDisplayName (same : SameDecls left right) (id : DeclId) :
    right.qualifiedDisplayName id = left.qualifiedDisplayName id := by
  rw [DeclTree.qualifiedDisplayName, DeclTree.qualifiedDisplayName, same.qualifiedName,
    same.parameterNames]

theorem isStd (same : SameDecls left right) (id : DeclId) : right.isStd id = left.isStd id := by
  rw [DeclTree.isStd, DeclTree.isStd, same.location, same.qualifiedName]

theorem inClassTemplate (same : SameDecls left right) (id : DeclId) :
    right.inClassTemplate id = left.inClassTemplate id := by
  rw [DeclTree.inClassTemplate, DeclTree.inClassTemplate, same.semanticParent]
  exact congrArg (Option.any · _) (funext fun parent => congrArg _ (same.kind parent))

theorem namesType (same : SameDecls left right) (id : DeclId) :
    TypeRegistries.namesType right id = TypeRegistries.namesType left id := by
  simp only [TypeRegistries.namesType, TypeRegistries.isPlainTypedef, same.kind, same.anonymous,
    same.inClassTemplate]

/-- What a typedef stands for has no part in the registry of names. -/
theorem typeNames (same : SameDecls left right) :
    (TypeRegistries.ofTree right).typeNames = (TypeRegistries.ofTree left).typeNames := by
  have registered : TypeRegistries.registeredName? right = TypeRegistries.registeredName? left := by
    funext id
    rw [TypeRegistries.registeredName?, TypeRegistries.registeredName?, same.namesType,
      same.spelling, same.qualifiedName, same.isStd]
  rw [TypeRegistries.ofTree, TypeRegistries.ofTree, registered, ids, ids, same.size]

end SameDecls

namespace DifferOnlyIn

variable {left right : DeclTree}

theorem sameDecls (differ : DifferOnlyIn target left right) : SameDecls left right := by
  obtain ⟨underlying, decls⟩ := differ.decls
  constructor
  · rw [DeclTree.size, DeclTree.size, decls, Array.size_modify]
  · intro id
    simp only [DeclTree.decl, decls, Array.getD_eq_getD_getElem?, Array.getElem?_modify]
    split
    · cases left.decls[id]? <;> rfl
    · rfl

variable {type : TypeId}

theorem kind (differ : DifferOnlyIn target left right) (built : left.BuiltFrom target type) :
    (right.type type).kind = (left.type type).kind :=
  congrArg (·.kind) (differ.types type built)

theorem spelling (differ : DifferOnlyIn target left right) (built : left.BuiltFrom target type) :
    (right.type type).spelling = (left.type type).spelling :=
  congrArg (·.spelling) (differ.types type built)

theorem isConst (differ : DifferOnlyIn target left right) (built : left.BuiltFrom target type) :
    (right.type type).isConst = (left.type type).isConst :=
  congrArg (·.isConst) (differ.types type built)

theorem pointee (differ : DifferOnlyIn target left right) (built : left.BuiltFrom target type) :
    (right.type type).pointee = (left.type type).pointee :=
  congrArg (·.pointee) (differ.types type built)

theorem arraySize (differ : DifferOnlyIn target left right) (built : left.BuiltFrom target type) :
    (right.type type).arraySize = (left.type type).arraySize :=
  congrArg (·.arraySize) (differ.types type built)

theorem declaration (differ : DifferOnlyIn target left right)
    (built : left.BuiltFrom target type) :
    (right.type type).declaration = (left.type type).declaration :=
  congrArg (·.declaration) (differ.types type built)

theorem builtIn (differ : DifferOnlyIn target left right) {steps : Nat}
    (built : left.BuiltIn target steps type) : right.BuiltIn target steps type := by
  induction built with
  | @direct type byName declares =>
      have whole : left.BuiltFrom target type := ⟨0, .direct byName declares⟩
      refine .direct ?_ ?_
      · rwa [differ.kind whole]
      · rwa [differ.declaration whole]
  | @written type inner steps kind undeclared pointee byName built ih =>
      have whole : left.BuiltFrom target type :=
        ⟨steps + 1, .written kind undeclared pointee byName built⟩
      refine .written ?_ ?_ ?_ ?_ ih
      · rwa [differ.kind whole]
      · rwa [differ.declaration whole]
      · rwa [differ.pointee whole]
      · rwa [differ.kind ⟨steps, built⟩]
  | @layer type inner steps kind pointee built ih =>
      have whole : left.BuiltFrom target type := ⟨steps + 1, .layer kind pointee built⟩
      refine .layer ?_ ?_ ih
      · rwa [differ.kind whole]
      · rwa [differ.pointee whole]

end DifferOnlyIn

end DeclTree

/-! ## Spellings -/

namespace TypeRegistries

variable {left right : TypeRegistries}

theorem longerName?_congr (same : right.typeNames = left.typeNames) :
    right.longerName? = left.longerName? := by
  funext simple
  rw [longerName?, longerName?, qualifiedName?, qualifiedName?, same]

theorem qualifyTemplateTo_congr (same : right.typeNames = left.typeNames) (depth : Nat) :
    ∀ spelling, right.qualifyTemplateTo depth spelling = left.qualifyTemplateTo depth spelling := by
  induction depth with
  | zero => exact fun _ => rfl
  | succ depth ih =>
      intro spelling
      have names : right.qualifyNames spelling = left.qualifyNames spelling := by
        rw [qualifyNames, qualifyNames, longerName?_congr same]
      have base : ∀ name, right.qualifyBase name = left.qualifyBase name := by
        intro name
        rw [qualifyBase, qualifyBase, qualifiedName?, qualifiedName?, same]
      rw [qualifyTemplateTo, qualifyTemplateTo, names, funext ih]
      simp only [base]

end TypeRegistries

namespace Speller

variable {target : DeclId} {left right : DeclTree}

/-- The name of a typedef is spelled alike in trees that differ only in what it stands for. -/
theorem spellTypedef_congr (differ : DeclTree.DifferOnlyIn target left right) (spelling : String)
    (id : DeclId) : (ofTree right).spellTypedef spelling id =
      (ofTree left).spellTypedef spelling id := by
  have same := differ.sameDecls
  have whole : (ofTree right).memberTypedef id = (ofTree left).memberTypedef id := by
    simp only [memberTypedef, ofTree, same.spelling, same.semanticParent,
      same.qualifiedDisplayName]
  have template : (TypeRegistries.ofTree right).qualifyTemplate spelling =
      (TypeRegistries.ofTree left).qualifyTemplate spelling :=
    TypeRegistries.qualifyTemplateTo_congr same.typeNames _ spelling
  rw [spellTypedef, spellTypedef, whole]
  simp only [ofTree, same.inClassTemplate, same.qualifiedName, template]
  rfl

/-- A type that names a typedef is spelled by the typedef. -/
theorem spellNamed_eq_spellTypedef {tree : DeclTree} {steps : Nat} {type : TypeId}
    (isTypedef : (tree.decl target).kind = .typedefDecl ∨ (tree.decl target).kind = .typeAlias)
    (built : tree.BuiltIn target steps type)
    (byName : (tree.type type).kind.isByName = true) :
    (ofTree tree).spellNamed type =
      (ofTree tree).spellTypedef (tree.type type).spelling target := by
  have behind : tree.typeDeclaration type = some target :=
    built.typeDeclarationTo_eq byName (Nat.lt_succ_of_lt built.steps_lt_size)
  rw [spellNamed]
  simp only [ofTree, behind]
  rcases isTypedef with kind | kind <;> rw [kind]

theorem functionBehind?_eq_none {tree : DeclTree} {type : TypeId}
    (built : tree.BuiltFrom target type) (free : tree.NamesNoFunction target) :
    functionBehind? tree type = none := by
  have canonical := free type built
  have own : (tree.type type).kind ≠ .functionProto := by
    obtain ⟨steps, built⟩ := built
    intro function
    cases built with
    | direct byName => simp [function, TypeKind.isByName] at byName
    | written kind => simp [function] at kind
    | layer kind => simp [function, TypeKind.isLayer] at kind
  simp only [functionBehind?, beq_eq_false_iff_ne.mpr own, Bool.false_eq_true, if_false]
  cases link : (tree.type type).canonical with
  | none => rfl
  | some core =>
      rw [DeclTree.canonical, link, Option.getD_some] at canonical
      simp [canonical]

/-- A type that names the typedef is spelled alike, however many steps are left. -/
theorem spellTo_congr_of_isByName (differ : DeclTree.DifferOnlyIn target left right)
    (isTypedef : (left.decl target).kind = .typedefDecl ∨ (left.decl target).kind = .typeAlias)
    {steps : Nat} {type : TypeId} (built : left.BuiltIn target steps type)
    (byName : (left.type type).kind.isByName = true) (depth other : Nat) :
    (ofTree right).spellTo (other + 1) type = (ofTree left).spellTo (depth + 1) type := by
  have isTypedefThere : (right.decl target).kind = .typedefDecl ∨
      (right.decl target).kind = .typeAlias := by
    rwa [differ.sameDecls.kind]
  have byNameThere : (right.type type).kind.isByName = true := by
    rwa [differ.kind ⟨steps, built⟩]
  rw [spellTo_of_isByName _ other byNameThere, spellTo_of_isByName _ depth byName,
    spellNamed_eq_spellTypedef isTypedef built byName,
    spellNamed_eq_spellTypedef isTypedefThere (differ.builtIn built) byNameThere,
    spellTypedef_congr differ]
  simp only [ofTree, differ.isConst ⟨steps, built⟩, differ.spelling ⟨steps, built⟩]

theorem spellTo_congr (differ : DeclTree.DifferOnlyIn target left right)
    (isTypedef : (left.decl target).kind = .typedefDecl ∨ (left.decl target).kind = .typeAlias)
    (leftFree : left.NamesNoFunction target) (rightFree : right.NamesNoFunction target)
    {steps : Nat} {type : TypeId} (built : left.BuiltIn target steps type) :
    ∀ {depth other : Nat}, steps ≤ depth → steps ≤ other →
      (ofTree right).spellTo (other + 1) type = (ofTree left).spellTo (depth + 1) type := by
  induction built with
  | direct byName declares =>
      intro depth other _ _
      exact spellTo_congr_of_isByName differ isTypedef (.direct byName declares) byName depth other
  | written kind undeclared pointee byName built ih =>
      intro depth other _ _
      exact spellTo_congr_of_isByName differ isTypedef
        (.written kind undeclared pointee byName built) (by rw [kind]; rfl) depth other
  | @layer type inner steps kind pointee built ih =>
      intro depth other enough enoughThere
      obtain ⟨depth, rfl⟩ := Nat.exists_eq_add_of_le' (Nat.one_le_of_lt enough)
      obtain ⟨other, rfl⟩ := Nat.exists_eq_add_of_le' (Nat.one_le_of_lt enoughThere)
      have whole : left.BuiltFrom target type := ⟨steps + 1, .layer kind pointee built⟩
      have pointeeThere : (right.type type).pointee = some inner := by
        rwa [differ.pointee whole]
      have kindThere : (right.type type).kind.isLayer = true := by
        rwa [differ.kind whole]
      have inside := ih (Nat.le_of_succ_le_succ enough) (Nat.le_of_succ_le_succ enoughThere)
      have noFunction := functionBehind?_eq_none ⟨steps, built⟩ leftFree
      have noFunctionThere := functionBehind?_eq_none ⟨steps, differ.builtIn built⟩ rightFree
      rw [spellTo_of_isLayer (ofTree left) (depth + 1) kind pointee noFunction,
        spellTo_of_isLayer (ofTree right) (other + 1) kindThere pointeeThere noFunctionThere, inside]
      exact around_congr (differ.kind whole) (differ.isConst whole) (differ.arraySize whole) _

/-- A type built from a typedef is spelled alike whatever the typedef stands for. -/
theorem spelling_hides_underlying_type
    (isTypedef : (left.decl target).kind = .typedefDecl ∨ (left.decl target).kind = .typeAlias)
    (differ : DeclTree.DifferOnlyIn target left right)
    (leftFree : left.NamesNoFunction target) (rightFree : right.NamesNoFunction target)
    {type : TypeId} (built : left.BuiltFrom target type) :
    (ofTree right).spell type = (ofTree left).spell type := by
  obtain ⟨steps, built⟩ := built
  have here := built.steps_lt_size
  have there := (differ.builtIn built).steps_lt_size
  exact spellTo_congr differ isTypedef leftFree rightFree built here.le there.le

/-- A typedef in a namespace for the given builtin type, and a reference to a constant of it. -/
def indexTree (underlying : String) : DeclTree :=
  ((TreeBuilder.start "/src/unit.hpp").performAll
    [.add 0 .namespaceDecl "geo",
     .builtin underlying,
     .newTypedef .typedefDecl 1 "Index" 0,
     .typedefType 2,
     .constRef 2]).tree

theorem const_reference_hides_underlying_type :
    (ofTree (indexTree "unsigned long")).spell 6 = (ofTree (indexTree "int")).spell 6 ∧
      (ofTree (indexTree "int")).spell 6 = "const geo::Index&" := by
  have closed : ∀ underlying ∈ ["int", "unsigned long"],
      ∀ type < (indexTree underlying).types.size,
        (((indexTree underlying).type type).declaration = some 2 → type ∈ [1, 2, 4, 6]) ∧
          ∀ inner ∈ [1, 2, 4, 6],
            ((indexTree underlying).type type).pointee = some inner → type ∈ [1, 2, 4, 6] := by
    decide +kernel
  have members : ∀ underlying ∈ ["int", "unsigned long"], ∀ {type},
      (indexTree underlying).BuiltFrom 2 type → type ∈ [1, 2, 4, 6] := by
    intro underlying member type built
    obtain ⟨steps, built⟩ := built
    exact built.mem_of_closed (closed underlying member)
  have agree : ∀ type ∈ [1, 2, 4, 6],
      { (indexTree "unsigned long").type type with canonical := none } =
        { (indexTree "int").type type with canonical := none } := by
    decide +kernel
  have free : ∀ underlying ∈ ["int", "unsigned long"], ∀ type ∈ [1, 2, 4, 6],
      ((indexTree underlying).type ((indexTree underlying).canonical type)).kind ≠
        .functionProto := by
    decide +kernel
  have differ : DeclTree.DifferOnlyIn 2 (indexTree "int") (indexTree "unsigned long") := by
    refine ⟨⟨some 0, by decide +kernel⟩, fun type built => agree type (members _ (by simp) built)⟩
  have reached : (indexTree "int").BuiltFrom 2 6 := by
    have constant : (indexTree "int").BuiltIn 2 0 4 := by
      refine .direct ?_ ?_ <;> decide +kernel
    refine ⟨1, .layer ?_ ?_ constant⟩ <;> decide +kernel
  refine ⟨spelling_hides_underlying_type (by decide +kernel) differ ?_ ?_ reached, by decide +kernel⟩
  · exact fun type built => free _ (by simp) type (members _ (by simp) built)
  · exact fun type built => free _ (by simp) type (members _ (by simp) built)

end Speller

end Bindery
