import Bindery.Proofs.Tree.Extension
import Bindery.Tree.Build

/-!
# Dimensions of arrays

An array of arrays is spelled from the inside, each size behind what is spelled so far.  The sizes
come out with the innermost first, while a declaration has the outermost first, so that the two
agree only where the sizes read the same in both directions.
-/

set_option autoImplicit false

namespace Bindery

namespace DeclTree

/-- A type that is an array of the first size, of arrays of the second, and so on, of elements. -/
inductive IsArrayOf (tree : DeclTree) (element : TypeId) : List Nat → TypeId → Prop
  | element : IsArrayOf tree element [] element
  | array {size : Nat} {sizes : List Nat} {type inner : TypeId}
      (kind : (tree.type type).kind = .constantArray) (bare : (tree.type type).isConst = false)
      (pointee : (tree.type type).pointee = some inner)
      (arraySize : (tree.type type).arraySize = some size)
      (inside : IsArrayOf tree element sizes inner) : IsArrayOf tree element (size :: sizes) type

end DeclTree

namespace Speller

/-- The sizes of an array as a declaration has them, the outermost first. -/
def dimensions : List Nat → String
  | [] => ""
  | size :: sizes => "[" ++ toString size ++ "]" ++ dimensions sizes

theorem dimensions_append (sizes others : List Nat) :
    dimensions (sizes ++ others) = dimensions sizes ++ dimensions others := by
  induction sizes with
  | nil => simp [dimensions]
  | cons size sizes ih => simp [dimensions, ih, String.append_assoc]

theorem toList_dimensions_cons (size : Nat) (sizes : List Nat) :
    (dimensions (size :: sizes)).toList =
        '[' :: (Nat.toDigits 10 size ++ ']' :: (dimensions sizes).toList) := by
  simp [dimensions]

theorem takeWhile_digits (size : Nat) (rest : List Char) :
    (Nat.toDigits 10 size ++ ']' :: rest).takeWhile (· != ']') = Nat.toDigits 10 size := by
  have digits : ∀ c ∈ Nat.toDigits 10 size, (c != ']') = true := by
    intro c member
    have digit : c.isDigit = true := Nat.isDigit_of_mem_toDigits (by decide) (by decide) member
    rw [bne_iff_ne]
    rintro rfl
    exact absurd digit (by decide)
  rw [List.takeWhile_append_of_pos digits, List.takeWhile_cons_of_neg (by decide), List.append_nil]

/-- The sizes can be read back. -/
theorem dimensions_inj {sizes others : List Nat} (same : dimensions sizes = dimensions others) :
    sizes = others := by
  induction sizes generalizing others with
  | nil =>
      cases others with
      | nil => rfl
      | cons other others =>
          have texts := congrArg String.toList same
          rw [toList_dimensions_cons] at texts
          cases texts
  | cons size sizes ih =>
      have texts := congrArg String.toList same
      rw [toList_dimensions_cons] at texts
      cases others with
      | nil => cases texts
      | cons other others =>
          rw [toList_dimensions_cons, List.cons.injEq] at texts
          obtain ⟨-, texts⟩ := texts
          have digits := congrArg (List.takeWhile (· != ']')) texts
          rw [takeWhile_digits, takeWhile_digits] at digits
          have first : size = other := by
            have read := congrArg (Nat.ofDigitChars 10 · 0) digits
            simpa using read
          rw [digits, List.append_cancel_left_eq, List.cons.injEq] at texts
          rw [first, ih (String.toList_inj.mp texts.2)]

variable {speller : Speller} {element type : TypeId} {sizes : List Nat}

theorem spell_eq_of_array (finite : speller.tree.HasFiniteTypes) {inner : TypeId} {size : Nat}
    (kind : (speller.tree.type type).kind = .constantArray)
    (bare : (speller.tree.type type).isConst = false)
    (pointee : (speller.tree.type type).pointee = some inner)
    (arraySize : (speller.tree.type type).arraySize = some size) :
    speller.spell type = speller.spell inner ++ dimensions [size] := by
  rw [← spellTo_size_eq_spell finite (.pointee pointee), spell, spellTo, kind]
  dsimp only
  rw [pointee, bare, arraySize]
  simp [Spelling.withConst, dimensions, String.append_assoc]

/-- The spelling of an array of arrays has the innermost size first. -/
theorem spell_array (finite : speller.tree.HasFiniteTypes)
    (array : speller.tree.IsArrayOf element sizes type) :
    speller.spell type = speller.spell element ++ dimensions sizes.reverse := by
  induction array with
  | element => simp [dimensions]
  | @array size sizes type inner kind bare pointee arraySize inside ih =>
      rw [spell_eq_of_array finite kind bare pointee arraySize, ih, List.reverse_cons,
        dimensions_append, String.append_assoc]

/-- An array of arrays is spelled as it is declared exactly if its sizes read the same from behind. -/
theorem dimensions_in_order_iff (finite : speller.tree.HasFiniteTypes)
    (array : speller.tree.IsArrayOf element sizes type) :
    speller.spell type = speller.spell element ++ dimensions sizes ↔ sizes.reverse = sizes := by
  rw [spell_array finite array]
  constructor
  · intro same
    exact dimensions_inj (String.append_right_inj _ |>.mp same)
  · intro palindrome
    rw [palindrome]

/-- Two floats, three times that, and two times that. -/
def gridTree : DeclTree :=
  ((TreeBuilder.start "/src/unit.hpp").performAll
    [.builtin "float",
     .array 0 2,
     .array 1 3,
     .array 2 2]).tree

theorem gridTree_isArrayOf :
    gridTree.IsArrayOf 0 [3, 2] 2 ∧ gridTree.IsArrayOf 0 [2, 3, 2] 3 := by
  have row : gridTree.IsArrayOf 0 [2] 1 := by
    apply DeclTree.IsArrayOf.array _ _ _ _ .element <;> decide +kernel
  have grid : gridTree.IsArrayOf 0 [3, 2] 2 := by
    apply DeclTree.IsArrayOf.array _ _ _ _ row <;> decide +kernel
  refine ⟨grid, ?_⟩
  apply DeclTree.IsArrayOf.array _ _ _ _ grid <;> decide +kernel

theorem symmetric_dimensions_are_in_order :
    gridTree.IsArrayOf 0 [2, 3, 2] 3 ∧ (ofTree gridTree).spell 3 = "float[2][3][2]" := by
  have finite : (ofTree gridTree).tree.HasFiniteTypes :=
    DeclTree.hasFiniteTypes_of_earlier (by decide +kernel)
  have array := gridTree_isArrayOf.2
  refine ⟨array, ((dimensions_in_order_iff finite array).mpr rfl).trans ?_⟩
  decide +kernel

/-- An array of three arrays of two elements is spelled as one of two arrays of three. -/
theorem dimensions_are_reversed :
    gridTree.IsArrayOf 0 [3, 2] 2 ∧ (ofTree gridTree).spell 2 = "float[2][3]" ∧
      (ofTree gridTree).spell 2 ≠ (ofTree gridTree).spell 0 ++ dimensions [3, 2] := by
  refine ⟨gridTree_isArrayOf.1, ?_, ?_⟩ <;> decide +kernel

end Speller

end Bindery
