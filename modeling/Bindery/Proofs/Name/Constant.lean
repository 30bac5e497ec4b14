import Bindery.Proofs.Name.Case
import Bindery.Proofs.Text.WholeWord

/-!
# Constants

Ruby takes a name for that of a constant if it begins with a capital.  The names of modules, classes
and values begin with the first character of the C++ name that is no underscore, in upper case.  So
they are names of constants as long as that character is a letter; a digit behind the underscores
stays a digit.
-/

set_option autoImplicit false

namespace Bindery

namespace Chars

variable {c : Char} {cs : List Char}

theorem isIdentChar_eq (c : Char) :
    isIdentChar c = (c.isUpper || c.isLower || c.isDigit || c == '_') :=
  rfl

theorem isIdentChar_upper (ident : isIdentChar c = true) : isIdentChar (upper c) = true := by
  cases letter : c.isLower with
  | true => rw [isIdentChar_eq, isUpper_upper letter, Bool.true_or, Bool.true_or, Bool.true_or]
  | false => rwa [upper, letter, if_neg Bool.false_ne_true]

theorem isUpper_eq_false_of_isDigit (digit : c.isDigit = true) : c.isUpper = false := by
  have upTo : c.toNat ≤ 57 := (Char.isDigit_iff_toNat.mp digit).2
  refine Bool.eq_false_iff.mpr fun capital => ?_
  obtain ⟨low, -⟩ : 'A'.val ≤ c.val ∧ c.val ≤ 'Z'.val := of_decide_eq_true capital
  have low : 65 ≤ c.toNat := UInt32.le_iff_toNat_le.mp low
  omega

theorem isLower_eq_false_of_isDigit (digit : c.isDigit = true) : c.isLower = false := by
  have upTo : c.toNat ≤ 57 := (Char.isDigit_iff_toNat.mp digit).2
  refine Bool.eq_false_iff.mpr fun small => ?_
  change (decide _ && decide _) = true at small
  have low : 'a'.val ≤ c.val := of_decide_eq_true (Bool.and_eq_true_iff.mp small).1
  have low : 97 ≤ c.toNat := UInt32.le_iff_toNat_le.mp low
  omega

/-- Of what a name consists of, the underscore apart, all but the digits have a capital. -/
theorem isUpper_upper_iff (ident : isIdentChar c = true) (shown : c ≠ '_') :
    (upper c).isUpper = true ↔ c.isDigit = false := by
  constructor
  · intro capital
    refine Bool.eq_false_iff.mpr fun digit => ?_
    rw [upper, isLower_eq_false_of_isDigit digit, if_neg Bool.false_ne_true,
      isUpper_eq_false_of_isDigit digit] at capital
    cases capital
  · intro letter
    cases small : c.isLower with
    | true => exact isUpper_upper small
    | false =>
        rw [upper, small, if_neg Bool.false_ne_true]
        rwa [isIdentChar_eq, small, letter, beq_false_of_ne shown, Bool.or_false, Bool.or_false,
          Bool.or_false] at ident

/-! ## First characters -/

theorem camelCase_cons_of_gap (gap : isWordGap c = true) :
    camelCase (c :: cs) = camelCase cs := by
  simp [camelCase, wordsBy, List.splitOnP_cons_eq_if_modifyHead, gap]

theorem head?_camelCase_cons (inner : isWordGap c = false) :
    (camelCase (c :: cs)).head? = some (upper c) := by
  cases words : cs.splitOnP isWordGap with
  | nil => exact absurd words (List.splitOnP_ne_nil _ _)
  | cons first later =>
      simp [camelCase, wordsBy, List.splitOnP_cons_eq_if_modifyHead, inner, words, capitalize]

/-- The camel case of a name begins with its first character that stands in a word. -/
theorem head?_camelCase (cs : List Char) :
    (camelCase cs).head? = (cs.dropWhile isWordGap).head?.map upper := by
  induction cs with
  | nil => rfl
  | cons c cs ih =>
      cases gap : isWordGap c with
      | true => rw [camelCase_cons_of_gap gap, List.dropWhile_cons_of_pos gap, ih]
      | false =>
          rw [head?_camelCase_cons gap, List.dropWhile_cons_of_neg (Bool.eq_false_iff.mp gap)]
          rfl

theorem dropWhile_isWordGap (ident : ∀ c ∈ cs, isIdentChar c = true) :
    cs.dropWhile isWordGap = cs.dropWhile (· == '_') := by
  induction cs with
  | nil => rfl
  | cons c cs ih =>
      obtain ⟨own, others⟩ := List.forall_mem_cons.mp ident
      have noDash : (c == '-') = false := beq_eq_false_iff_ne.mpr (by rintro rfl; cases own)
      have noSpace : (c == ' ') = false := beq_eq_false_iff_ne.mpr (by rintro rfl; cases own)
      have same : isWordGap c = (c == '_') := by simp [isWordGap, noDash, noSpace]
      rw [List.dropWhile_cons, List.dropWhile_cons, same, ih others]

theorem head?_constantName (shown : cs.dropWhile (· == '_') ≠ []) :
    (constantName cs).head? = (cs.dropWhile (· == '_')).head?.map upper := by
  obtain ⟨c, rest, bare⟩ := List.exists_cons_of_ne_nil shown
  rw [constantName, bare]
  rfl

end Chars

namespace Name

/-- Whether Ruby takes a name for that of a constant. -/
def beginsWithCapital (name : String) : Bool :=
  name.toList.head?.any Char.isUpper

/-- The characters of a name behind the underscores in front. -/
def behindUnderscores (name : String) : List Char :=
  name.toList.dropWhile (· == '_')

theorem exists_behindUnderscores {name : String} (lettered : ∃ c ∈ name.toList, c.isAlpha = true) :
    ∃ c rest, behindUnderscores name = c :: rest ∧ c ≠ '_' := by
  obtain ⟨letter, member, isLetter⟩ := lettered
  have shown : behindUnderscores name ≠ [] := by
    intro nothing
    have blank := List.dropWhile_eq_nil_iff.mp nothing letter member
    rw [eq_of_beq blank] at isLetter
    cases isLetter
  obtain ⟨c, rest, bare⟩ := List.exists_cons_of_ne_nil shown
  refine ⟨c, rest, bare, fun same => ?_⟩
  have first := List.head?_dropWhile_not (· == '_') name.toList
  rw [behindUnderscores] at bare
  rw [bare] at first
  simp [same] at first

/-- The constant for an identifier with a letter consists of letters, digits and underscores, and it
begins with a capital if and only if no digit follows the underscores in front. -/
theorem constants_begin_with_capital_iff {name : String} (named : Text.IsIdentifier name)
    (lettered : ∃ c ∈ name.toList, c.isAlpha = true) :
    ∀ result ∈ [camelCase name, constant name],
      result ≠ "" ∧ (∀ c ∈ result.toList, Chars.isIdentChar c = true) ∧
        (beginsWithCapital result = true ↔
          Chars.startsWithDigit (behindUnderscores name) = false) := by
  obtain ⟨first, rest, bare, shown⟩ := exists_behindUnderscores lettered
  have dropped : name.toList.dropWhile (· == '_') = first :: rest := bare
  have ident : Chars.isIdentChar first = true := by
    refine named.plain first ((List.dropWhile_suffix (· == '_')).subset ?_)
    rw [dropped]
    exact List.mem_cons_self
  have begins : ∀ {result : String}, result.toList.head? = some (Chars.upper first) →
      result ≠ "" ∧ (beginsWithCapital result = true ↔
        Chars.startsWithDigit (behindUnderscores name) = false) := by
    intro result head
    refine ⟨?_, ?_⟩
    · rintro rfl
      cases head
    · rw [beginsWithCapital, head, Chars.startsWithDigit, bare]
      exact Chars.isUpper_upper_iff ident shown
  have camelHead : (camelCase name).toList.head? = some (Chars.upper first) := by
    have words : name.toList.dropWhile Chars.isWordGap = first :: rest :=
      (Chars.dropWhile_isWordGap named.plain).trans dropped
    rw [camelCase, String.toList_ofList, Chars.head?_camelCase, words]
    rfl
  have constantHead : (constant name).toList.head? = some (Chars.upper first) := by
    rw [constant, String.toList_ofList, Chars.head?_constantName (by simp [dropped]), dropped]
    rfl
  have raises : ∀ c, Chars.isIdentChar c = true → Chars.isIdentChar (Chars.upper c) = true :=
    fun _ => Chars.isIdentChar_upper
  simp only [List.forall_mem_cons]
  refine ⟨⟨(begins camelHead).1, ?_, (begins camelHead).2⟩,
    ⟨(begins constantHead).1, ?_, (begins constantHead).2⟩,
    List.forall_mem_nil _⟩
  · rw [camelCase, String.toList_ofList]
    exact Chars.forall_mem_camelCase raises named.plain
  · rw [constant, String.toList_ofList]
    exact Chars.forall_mem_constantName raises named.plain

theorem letter_behind_underscores_is_capital :
    Text.IsIdentifier "__mat_3d" ∧ camelCase "__mat_3d" = "Mat3d" ∧ constant "__mat_3d" = "Mat_3d" ∧
      ∀ result ∈ [camelCase "__mat_3d", constant "__mat_3d"], beginsWithCapital result = true := by
  have named : Text.IsIdentifier "__mat_3d" := by decide
  have lettered : ∃ c ∈ "__mat_3d".toList, c.isAlpha = true := List.any_eq_true.mp (by decide)
  refine ⟨named, by decide +kernel, by decide +kernel, fun result member => ?_⟩
  exact (constants_begin_with_capital_iff named lettered result member).2.2.mpr (by decide)

/-- A digit behind the underscores is no capital, and the letter behind it stays as it is. -/
theorem digit_behind_underscore_is_no_capital :
    Text.IsIdentifier "_2d" ∧ (∃ c ∈ "_2d".toList, c.isAlpha = true) ∧
      camelCase "_2d" = "2d" ∧ constant "_2d" = "2d" ∧ beginsWithCapital "2d" = false := by
  have lettered : ∃ c ∈ "_2d".toList, c.isAlpha = true := List.any_eq_true.mp (by decide)
  exact ⟨by decide, lettered, by decide +kernel, by decide +kernel, by decide⟩

end Name

end Bindery
