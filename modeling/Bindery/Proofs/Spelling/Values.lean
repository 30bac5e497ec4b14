import Bindery.Proofs.Spelling.Agreement
import Bindery.Proofs.Text.Constness
import Bindery.Proofs.Tree.Extension

/-!
# Spellings of values

The spelling of a value is that of its type without a `const ` in front.  Whose `const` that is the
text does not tell: it may belong to what a pointer points at or to the elements of an array, and
that of a pointer itself stands at the end, where it is kept.
-/

set_option autoImplicit false

namespace Bindery

namespace DeclTree

/-- The tree in which a type is without its own `const`. -/
def unqualify (tree : DeclTree) (id : TypeId) : DeclTree :=
  tree.modifyType id fun type => { type with isConst := false }

theorem type_unqualify (tree : DeclTree) (id other : TypeId) :
    (tree.unqualify id).type other =
      if id = other then { tree.type other with isConst := false } else tree.type other := by
  simp only [unqualify, modifyType, type, Array.getD_eq_getD_getElem?, Array.getElem?_modify]
  split
  case isTrue => cases tree.types[other]? <;> rfl
  case isFalse => rfl

theorem type_unqualify_of_ne {tree : DeclTree} {id other : TypeId} (apart : id ≠ other) :
    (tree.unqualify id).type other = tree.type other := by
  rw [type_unqualify, if_neg apart]

theorem decl_unqualify (tree : DeclTree) (id : TypeId) : (tree.unqualify id).decl = tree.decl :=
  rfl

theorem qualifiedName_unqualify (tree : DeclTree) (id : TypeId) :
    (tree.unqualify id).qualifiedName = tree.qualifiedName := by
  have above : ∀ depth declared,
      (tree.unqualify id).ancestorsTo depth declared = tree.ancestorsTo depth declared := by
    intro depth
    induction depth with
    | zero => exact fun _ => rfl
    | succ depth ih =>
        intro declared
        simp only [ancestorsTo, semanticParent, decl_unqualify, ih]
  have size : (tree.unqualify id).size = tree.size := rfl
  funext declared
  simp only [qualifiedName, scopeComponents, ancestors, above, size, decl_unqualify]
  rfl

/-- All that a type tells besides its `const` stays. -/
theorem exists_type_unqualify (tree : DeclTree) (id other : TypeId) :
    ∃ isConst, (tree.unqualify id).type other = { tree.type other with isConst } := by
  rw [type_unqualify]
  split
  · exact ⟨false, rfl⟩
  · exact ⟨_, rfl⟩

theorem canonical_unqualify (tree : DeclTree) (id other : TypeId) :
    (tree.unqualify id).canonical other = tree.canonical other := by
  obtain ⟨isConst, same⟩ := exists_type_unqualify tree id other
  rw [canonical, canonical, same]

theorem typeDeclaration_unqualify (tree : DeclTree) (id other : TypeId) :
    (tree.unqualify id).typeDeclaration other = tree.typeDeclaration other := by
  have steps : ∀ depth other,
      (tree.unqualify id).typeDeclarationTo depth other = tree.typeDeclarationTo depth other := by
    intro depth
    induction depth with
    | zero => exact fun _ => rfl
    | succ depth ih =>
        intro other
        obtain ⟨isConst, same⟩ := exists_type_unqualify tree id other
        rw [typeDeclarationTo, typeDeclarationTo, same, funext ih]
  have size : (tree.unqualify id).types.size = tree.types.size := Array.size_modify
  rw [typeDeclaration, typeDeclaration, size, steps]

end DeclTree

namespace Speller

variable {speller : Speller} {value : TypeId}

/-- The speller for which a type is without its own `const`. -/
def bare (speller : Speller) (value : TypeId) : Speller :=
  speller.upon (speller.tree.unqualify value)

theorem spellNamed_bare (id : TypeId) :
    (speller.bare value).spellNamed id = speller.spellNamed id := by
  have spelling : ∀ other, ((speller.tree.unqualify value).type other).spelling =
      (speller.tree.type other).spelling := by
    intro other
    obtain ⟨isConst, same⟩ := speller.tree.exists_type_unqualify value other
    rw [same]
  simp only [spellNamed, spellRecord, spellTemplate, spellTypedef, memberTypedef, bare, upon_tree,
    upon_registries, DeclTree.typeDeclaration_unqualify, DeclTree.canonical_unqualify,
    DeclTree.qualifiedDisplayName, DeclTree.parameterNames, DeclTree.templateParameters,
    DeclTree.childrenOfKind, DeclTree.children, DeclTree.inClassTemplate, DeclTree.semanticParent,
    DeclTree.qualifiedName_unqualify, DeclTree.decl_unqualify, spelling]

theorem functionBehind?_unqualify {tree : DeclTree}
    (solid : (tree.type value).kind ≠ .functionProto) (pointee : TypeId) :
    functionBehind? (tree.unqualify value) pointee = functionBehind? tree pointee := by
  have found : ∀ id, Option.filter (fun type => type.kind == .functionProto)
        (some ((tree.unqualify value).type id)) =
      Option.filter (fun type => type.kind == .functionProto) (some (tree.type id)) := by
    intro id
    by_cases own : value = id
    · subst own
      obtain ⟨isConst, same⟩ := tree.exists_type_unqualify value value
      simp [same, Option.filter, solid]
    · rw [DeclTree.type_unqualify_of_ne own]
  have read : ∀ tree : DeclTree, functionBehind? tree pointee =
      (Option.filter (fun type => type.kind == .functionProto) (some (tree.type pointee))).or
        ((tree.type pointee).canonical.bind fun core =>
          Option.filter (fun type => type.kind == .functionProto) (some (tree.type core))) := by
    intro tree
    unfold functionBehind?
    cases isFunction : (tree.type pointee).kind == .functionProto with
    | true => simp [isFunction, Option.filter]
    | false => cases core : (tree.type pointee).canonical <;> simp [isFunction, core, Option.filter]
  obtain ⟨isConst, same⟩ := tree.exists_type_unqualify value pointee
  rw [read, read, found, same, funext found]

end Speller

/-! ## Spellings without `const` -/

namespace CppType

/-- Whether a type is spelled as the source has it, with the qualifiers in front. -/
def isSpelledBare (type : CppType) : Bool :=
  match type.kind with
  | .builtin | .functionProto | .templateParameter | .dependent => true
  | .lvalueRef | .rvalueRef | .pointer | .constantArray | .incompleteArray => type.pointee.isNone
  | .elaborated | .typedefName | .record | .enum | .unexposed => false

/-- Whether a type is a pointer that is constant itself. -/
def isConstPointer (type : CppType) : Bool :=
  type.kind == .pointer && type.pointee.isSome && type.isConst

/-- How the spelling of a type is made from that of the type without its own `const`. -/
def withOwnConst (type : CppType) (text : String) : String :=
  if type.isSpelledBare then (if type.isConst then "const " else "") ++ text
  else
    match type.kind with
    | .lvalueRef | .rvalueRef => text
    | .pointer => if type.isConst then text ++ " const" else text
    | _ => Spelling.withConst type.isConst text

theorem withOwnConst_of_not {type : CppType} (plain : type.isConst = false) (text : String) :
    type.withOwnConst text = text := by
  rw [withOwnConst, plain]
  cases type.isSpelledBare with
  | true => simp
  | false => cases type.kind <;> simp [Spelling.withConst]

end CppType

namespace Speller

variable {speller : Speller} {value : TypeId}

/-- The parts of a type that is no function are spelled as they were. -/
theorem spellTo_bare {rank : TypeId → Nat}
    (lower : ∀ inner outer, speller.tree.IsPart inner outer → rank inner < rank outer)
    (solid : (speller.tree.type value).kind ≠ .functionProto) (depth : Nat) {id : TypeId}
    (less : rank id < rank value) :
    (speller.bare value).spellTo depth id = speller.spellTo depth id := by
  have apart : value ≠ id := by
    rintro rfl
    exact Nat.lt_irrefl _ less
  have same : (speller.bare value).tree.type id = speller.tree.type id :=
    DeclTree.type_unqualify_of_ne apart
  induction depth generalizing id with
  | zero => rw [spellTo, spellTo, same]
  | succ depth ih =>
      apply spellTo_succ_congr same (spellNamed_bare id)
      · exact fun pointee _ => functionBehind?_unqualify solid pointee
      · intro inner isPart
        have inside := (lower inner id isPart).trans less
        have other : value ≠ inner := by
          rintro rfl
          exact Nat.lt_irrefl _ inside
        exact ih inside other (DeclTree.type_unqualify_of_ne other)

/-- What is written for a pointer, without a `const` of its own. -/
def pointerText (speller : Speller) (depth : Nat) (pointee : TypeId) : String :=
  match functionBehind? speller.tree pointee with
  | some function =>
      let result := (function.result.map (speller.spellTo depth)).getD "void"
      let params := function.params.map (speller.spellTo depth)
      let params := if function.isVariadic then params ++ ["..."] else params
      result ++ " (*)(" ++ Text.joinArgs params ++ ")"
  | none => speller.spellTo depth pointee ++ "*"

/-- What is written for a type that is not spelled as the source has it, without a `const` of its
own. -/
def layerText (speller : Speller) (depth : Nat) (id : TypeId) : String :=
  let type := speller.tree.type id
  match type.kind, type.pointee with
  | .lvalueRef, some pointee => speller.spellTo depth pointee ++ "&"
  | .rvalueRef, some pointee => speller.spellTo depth pointee ++ "&&"
  | .pointer, some pointee => speller.pointerText depth pointee
  | .constantArray, some element | .incompleteArray, some element =>
      speller.spellTo depth element ++ "[" ++ (type.arraySize.map toString).getD "" ++ "]"
  | _, _ => speller.spellNamed id

theorem spellTo_of_isSpelledBare {depth : Nat}
    (isBare : (speller.tree.type value).isSpelledBare = true) :
    speller.spellTo (depth + 1) value = (speller.tree.type value).bareSpelling := by
  unfold CppType.isSpelledBare at isBare
  rw [spellTo]
  split at isBare <;> simp_all

theorem spellTo_of_layer {depth : Nat}
    (layered : (speller.tree.type value).isSpelledBare = false) :
    speller.spellTo (depth + 1) value =
      (speller.tree.type value).withOwnConst (speller.layerText depth value) := by
  rw [CppType.withOwnConst, layered, if_neg Bool.false_ne_true, spellTo, layerText]
  unfold CppType.isSpelledBare at layered
  cases kind : (speller.tree.type value).kind <;>
    cases around : (speller.tree.type value).pointee
  case pointer.some pointee =>
    simp only
    rfl
  all_goals simp_all

theorem pointerText_bare (solid : (speller.tree.type value).kind ≠ .functionProto) {depth : Nat}
    (inside : ∀ inner, speller.tree.IsPart inner value →
      (speller.bare value).spellTo depth inner = speller.spellTo depth inner) {pointee : TypeId}
    (around : (speller.tree.type value).pointee = some pointee) :
    (speller.bare value).pointerText depth pointee = speller.pointerText depth pointee := by
  have behind : functionBehind? (speller.bare value).tree pointee =
      functionBehind? speller.tree pointee := functionBehind?_unqualify solid pointee
  rw [pointerText, pointerText, behind]
  cases found : functionBehind? speller.tree pointee with
  | none =>
      dsimp only
      rw [inside pointee (.pointee around)]
  | some function =>
      have params : function.params.map ((speller.bare value).spellTo depth) =
          function.params.map (speller.spellTo depth) :=
        List.map_congr_left fun inner takes => inside inner (.param around found takes)
      have result : function.result.map ((speller.bare value).spellTo depth) =
          function.result.map (speller.spellTo depth) :=
        Option.map_congr fun inner gives => inside inner (.result around found gives)
      dsimp only
      rw [params, result]

theorem layerText_bare (solid : (speller.tree.type value).kind ≠ .functionProto) {depth : Nat}
    (inside : ∀ inner, speller.tree.IsPart inner value →
      (speller.bare value).spellTo depth inner = speller.spellTo depth inner) :
    (speller.bare value).layerText depth value = speller.layerText depth value := by
  obtain ⟨isConst, own⟩ := speller.tree.exists_type_unqualify value value
  have same : (speller.bare value).tree.type value = { speller.tree.type value with isConst } := own
  rw [layerText, layerText, same, spellNamed_bare]
  dsimp only
  cases around : (speller.tree.type value).pointee with
  | none => cases (speller.tree.type value).kind <;> rfl
  | some pointee =>
      have part := inside pointee (.pointee around)
      have pointer := pointerText_bare solid inside around
      cases (speller.tree.type value).kind <;> simp only [part, pointer]

theorem type_bare (speller : Speller) (value : TypeId) :
    (speller.bare value).tree.type value = { speller.tree.type value with isConst := false } := by
  simp [bare, DeclTree.type_unqualify]

theorem isSpelledBare_bare (speller : Speller) (value : TypeId) :
    ((speller.bare value).tree.type value).isSpelledBare =
      (speller.tree.type value).isSpelledBare := by
  rw [type_bare]
  rfl

/-- A type that is not spelled as the source has it is spelled by its layer, once it is bare. -/
theorem spell_bare_of_layer (layered : (speller.tree.type value).isSpelledBare = false) :
    (speller.bare value).spell value =
      (speller.bare value).layerText (speller.bare value).tree.types.size value := by
  have plain : ((speller.bare value).tree.type value).isConst = false := by rw [type_bare]
  rw [spell, spellTo_of_layer ((isSpelledBare_bare speller value).trans layered),
    CppType.withOwnConst_of_not plain]

/-- The spelling of a type is that of the type without its own `const`, and the `const`. -/
theorem spell_eq_withOwnConst (finite : speller.tree.HasFiniteTypes) (value : TypeId) :
    speller.spell value =
      (speller.tree.type value).withOwnConst ((speller.bare value).spell value) := by
  cases isBare : (speller.tree.type value).isSpelledBare with
  | true =>
      have also := (isSpelledBare_bare speller value).trans isBare
      rw [spell, spell, spellTo_of_isSpelledBare isBare, spellTo_of_isSpelledBare also, type_bare,
        CppType.withOwnConst, if_pos isBare]
      simp [CppType.bareSpelling, String.append_assoc]
  | false =>
      obtain ⟨rank, bounded, lower⟩ := finite
      have solid : (speller.tree.type value).kind ≠ .functionProto := by
        intro isFunction
        simp [CppType.isSpelledBare, isFunction] at isBare
      have inside : ∀ inner, speller.tree.IsPart inner value →
          (speller.bare value).spellTo speller.tree.types.size inner =
            speller.spellTo speller.tree.types.size inner := fun inner isPart =>
        spellTo_bare lower solid _ (lower inner value isPart)
      have size : (speller.bare value).tree.types.size = speller.tree.types.size :=
        Array.size_modify
      rw [spell_bare_of_layer isBare, size, layerText_bare solid inside, spell,
        spellTo_of_layer isBare]

theorem pointerText_ends (depth : Nat) (pointee : TypeId) :
    ∃ c ∈ (speller.pointerText depth pointee).toList.getLast?, Chars.isIdentChar c = false := by
  have closed : ∀ front : String, ')' ∈ (front ++ ")").toList.getLast? := by simp
  have starred : ∀ front : String, '*' ∈ (front ++ "*").toList.getLast? := by simp
  unfold pointerText
  cases functionBehind? speller.tree pointee with
  | none => exact ⟨'*', starred _, by decide⟩
  | some function => exact ⟨')', closed _, by decide⟩

/-- The spelling of a pointer without its own `const` ends in a star or a bracket. -/
theorem spell_bare_ends (isConst : (speller.tree.type value).isConstPointer = true) :
    ∃ c ∈ ((speller.bare value).spell value).toList.getLast?, Chars.isIdentChar c = false := by
  obtain ⟨⟨kind, some⟩, -⟩ : ((speller.tree.type value).kind = .pointer ∧
      (speller.tree.type value).pointee.isSome = true) ∧ _ := by
    simpa [CppType.isConstPointer] using isConst
  obtain ⟨pointee, around⟩ := Option.isSome_iff_exists.mp some
  have layered : (speller.tree.type value).isSpelledBare = false := by
    simp [CppType.isSpelledBare, kind, around]
  rw [spell_bare_of_layer layered, layerText, type_bare]
  simp only [kind, around]
  exact pointerText_ends _ _

theorem getLast?_spell_bare (isConst : (speller.tree.type value).isConstPointer = true) :
    ((speller.bare value).spell value).toList.getLast? ≠ some 't' := by
  obtain ⟨c, last, other⟩ := spell_bare_ends isConst
  rw [Option.mem_def.mp last]
  rintro ⟨⟩
  exact absurd other (by decide)

end Speller

namespace CppType

variable {type : CppType} {text : String}

theorem isConstPointer_of_isSpelledBare (isBare : type.isSpelledBare = true) :
    type.isConstPointer = false := by
  unfold isSpelledBare at isBare
  unfold isConstPointer
  split at isBare <;> simp_all

/-- A `const` that is put in front unless there is one is taken away unless there is one. -/
theorem withoutConst_withConst_iff (isConst : Bool) :
    Text.withoutConst (Spelling.withConst isConst text) = text ↔
      Text.startsWith "const " text = false := by
  cases starts : Text.startsWith "const " text with
  | true =>
      have kept : Spelling.withConst isConst text = text := by simp [Spelling.withConst, starts]
      rw [kept, Text.withoutConst_eq_self_iff, starts]
  | false =>
      cases isConst with
      | true => simp [Spelling.withConst, starts, Text.withoutConst_append]
      | false => simp [Spelling.withConst, Text.withoutConst_of_plain starts]

/-- A type that is no reference and not spelled as the source has it is a pointer, whose own `const`
stands behind, or has it in front unless another one stands there. -/
theorem withOwnConst_of_layer (value : type.kind.isReference = true → type.pointee = none)
    (layered : type.isSpelledBare = false) :
    (type.isConstPointer = type.isConst ∧
        type.withOwnConst text = if type.isConst then text ++ " const" else text) ∨
      (type.isConstPointer = false ∧
        type.withOwnConst text = Spelling.withConst type.isConst text) := by
  have other : type.kind.isReference = false := by
    by_contra isReference
    have nothing := value (Bool.eq_true_of_not_eq_false isReference)
    cases kind : type.kind <;> simp_all [isSpelledBare, TypeKind.isReference]
  by_cases pointer : type.kind = .pointer
  · have around : type.pointee.isSome = true := by
      simpa [isSpelledBare, pointer] using layered
    refine .inl ⟨by simp [isConstPointer, pointer, around], ?_⟩
    simp [withOwnConst, layered, pointer]
  · refine .inr ⟨by simp [isConstPointer, pointer], ?_⟩
    rw [withOwnConst, layered]
    cases kind : type.kind <;> simp_all [TypeKind.isReference]

theorem withoutConst_withOwnConst_iff
    (value : type.kind.isReference = true → type.pointee = none)
    (ends : type.isConstPointer = true → text.toList.getLast? ≠ some 't') :
    Text.withoutConst (type.withOwnConst text) = text ↔
      type.isConstPointer = false ∧ (Text.startsWith "const " text = true →
        type.isSpelledBare = true ∧ type.isConst = true) := by
  cases isBare : type.isSpelledBare with
  | true =>
      rw [withOwnConst, if_pos isBare]
      cases isConst : type.isConst with
      | true => simp [Text.withoutConst_append, isConstPointer_of_isSpelledBare isBare]
      | false => simp [Text.withoutConst_eq_self_iff, isConstPointer_of_isSpelledBare isBare]
  | false =>
      rcases withOwnConst_of_layer value isBare with ⟨constant, written⟩ | ⟨plain, written⟩
      · rw [written, constant]
        cases isConst : type.isConst with
        | true => simp [Text.withoutConst_append_const_ne (ends (constant.trans isConst))]
        | false => simp [Text.withoutConst_eq_self_iff]
      · rw [written, withoutConst_withConst_iff, plain]
        simp

/-- The spelling of a value has the `const` of its type in front or, for a pointer, behind. -/
theorem qualified_withOwnConst (value : type.kind.isReference = true → type.pointee = none)
    (ends : type.isConstPointer = true → ∃ c ∈ text.toList.getLast?, Chars.isIdentChar c = false) :
    Text.Qualified text type.isConst type.isConstPointer (type.withOwnConst text) := by
  cases isBare : type.isSpelledBare with
  | true =>
      rw [withOwnConst, if_pos isBare, isConstPointer_of_isSpelledBare isBare]
      cases type.isConst with
      | true => exact .front
      | false =>
          rw [if_neg Bool.false_ne_true, String.empty_append]
          exact .plain
  | false =>
      rcases withOwnConst_of_layer value isBare with ⟨constant, written⟩ | ⟨plain, written⟩
      · rw [written, constant]
        cases isConst : type.isConst with
        | true => exact .behind (ends (constant.trans isConst))
        | false => exact .plain
      · rw [written, plain, Spelling.withConst]
        cases starts : Text.startsWith "const " text with
        | true =>
            rw [Bool.not_true, Bool.and_false, if_neg Bool.false_ne_true]
            exact .shared starts
        | false =>
            cases type.isConst with
            | true => exact .front
            | false => exact .plain

end CppType

theorem DeclTree.HasFiniteTypes.pointee_nonReference {tree : DeclTree}
    (finite : tree.HasFiniteTypes) (id : TypeId)
    (isReference : (tree.type (tree.nonReference id)).kind.isReference = true) :
    (tree.type (tree.nonReference id)).pointee = none := by
  obtain ⟨rank, bounded, lower⟩ := finite
  have ends : ∀ depth id, rank id < depth →
      (tree.type (tree.nonReferenceTo depth id)).kind.isReference = true →
        (tree.type (tree.nonReferenceTo depth id)).pointee = none := by
    intro depth
    induction depth with
    | zero => exact fun id none => absurd none (Nat.not_lt_zero _)
    | succ depth ih =>
        intro id enough isReference
        rw [nonReferenceTo] at isReference ⊢
        split at isReference
        case isFalse other => exact absurd isReference other
        case isTrue own =>
          rw [if_pos own]
          cases around : (tree.type id).pointee with
          | none => exact around
          | some pointee =>
              rw [around] at isReference
              have less := lower pointee id (.pointee around)
              exact ih pointee (by omega) isReference
  exact ends _ id (Nat.lt_succ_of_le (bounded id)) isReference

namespace Speller

/-- The spelling of a type without the references around it and without its own `const`. -/
def bareValue (speller : Speller) (id : TypeId) : String :=
  (speller.bare (speller.tree.nonReference id)).spell (speller.tree.nonReference id)

/-- Whether the type behind the references of a type is constant. -/
def isConstValue (speller : Speller) (id : TypeId) : Bool :=
  (speller.tree.type (speller.tree.nonReference id)).isConst

/-- Whether the type behind the references of a type is a pointer that is constant itself. -/
def isConstPointer (speller : Speller) (id : TypeId) : Bool :=
  (speller.tree.type (speller.tree.nonReference id)).isConstPointer

theorem qualified_spell {speller : Speller} (finite : speller.tree.HasFiniteTypes) (id : TypeId) :
    Text.Qualified (speller.bareValue id) (speller.isConstValue id) (speller.isConstPointer id)
      (speller.spell (speller.tree.nonReference id)) := by
  rw [spell_eq_withOwnConst finite]
  exact CppType.qualified_withOwnConst (finite.pointee_nonReference id) spell_bare_ends

/-- What is written for a value is the spelling of its type without references and without its own
`const` exactly if the type is no constant pointer, and what is left does not begin with the `const`
of another type. -/
theorem spellValue_eq_bareValue_iff {speller : Speller} (finite : speller.tree.HasFiniteTypes)
    (id : TypeId) :
    speller.spellValue id = speller.bareValue id ↔
      (speller.tree.type (speller.tree.nonReference id)).isConstPointer = false ∧
        (Text.startsWith "const " (speller.bareValue id) = true →
          (speller.tree.type (speller.tree.nonReference id)).isSpelledBare = true ∧
            (speller.tree.type (speller.tree.nonReference id)).isConst = true) := by
  have spelled : speller.spellValue id =
      Text.withoutConst (speller.spell (speller.tree.nonReference id)) := rfl
  rw [spelled, spell_eq_withOwnConst finite]
  exact CppType.withoutConst_withOwnConst_iff (finite.pointee_nonReference id) getLast?_spell_bare

/-- A pointer and a reference to a constant matrix. -/
def constTree : DeclTree :=
  ((TreeBuilder.start "/src/unit.hpp").performAll
    [.add 0 .classDecl "Mat",
     .named 1,
     .const 1,
     .derived .pointer 3,
     .derived .lvalueRef 3]).tree

theorem const_reference_is_a_value :
    constTree.HasFiniteTypes ∧
      (ofTree constTree).spellValue 7 = (ofTree constTree).bareValue 7 := by
  have finite : (ofTree constTree).tree.HasFiniteTypes :=
    DeclTree.hasFiniteTypes_of_earlier (by decide +kernel)
  exact ⟨finite, (spellValue_eq_bareValue_iff finite 7).mpr (by decide +kernel)⟩

/-- The `const` of what the pointer points at is taken away. -/
theorem pointer_to_const_loses_const :
    (ofTree constTree).spellValue 5 = "Mat*" ∧
      (ofTree constTree).bareValue 5 = "const Mat*" := by
  decide +kernel

end Speller

end Bindery
