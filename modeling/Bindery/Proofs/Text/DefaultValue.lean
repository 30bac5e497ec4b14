import Bindery.Proofs.Text.Arguments
import Bindery.Proofs.Text.Trimming
import Bindery.Text.DefaultValue

/-!
# Reading back default values

The value of a parameter is whatever stands behind the first `=` outside brackets that is no
comparison.  An arrow or a shift moves the count of brackets as a bracket does; as long as each `=`
of the declarator stands inside some brackets and none are open at its end, the value is found as
it was written, with all the brackets and comparisons that it has itself.
-/

set_option autoImplicit false

namespace Bindery

namespace Chars

/-- A text in front of a default value: each `=` in it stands inside brackets, and no more brackets
are opened than closed. -/
structure IsDeclarator (cs : List Char) : Prop where
  inside : ∀ front, front ++ ['='] <+: cs → 1 ≤ depthOf bracketNesting front
  closed : depthOf bracketNesting cs ≤ 0

theorem isDeclarator_iff {cs : List Char} :
    (∀ front ∈ cs.inits, (front ++ ['=']).isPrefixOf cs = true →
        1 ≤ depthOf bracketNesting front) ∧
      depthOf bracketNesting cs ≤ 0 ↔ IsDeclarator cs := by
  simp only [List.mem_inits, List.isPrefixOf_iff_prefix]
  constructor
  · rintro ⟨inside, closed⟩
    refine ⟨fun front equals => ?_, closed⟩
    exact inside front ((List.prefix_append front ['=']).trans equals) equals
  · rintro ⟨inside, closed⟩
    exact ⟨fun front _ => inside front, closed⟩

instance (cs : List Char) : Decidable (IsDeclarator cs) :=
  decidable_of_iff _ isDeclarator_iff

/-- A text whose equals signs all stand inside brackets is passed over. -/
theorem defaultValueFrom_append {depth : Int} {before : Option Char} {front : List Char}
    (inside : ∀ left, left ++ ['='] <+: front → 1 ≤ depth + depthOf bracketNesting left)
    (back : List Char) :
    defaultValueFrom depth before (front ++ back) =
      defaultValueFrom (depth + depthOf bracketNesting front) (front.getLast?.or before) back := by
  induction front generalizing depth before with
  | nil => simp
  | cons c rest ih =>
      have kept : ¬ (c = '=' ∧ depth ≤ 0 ∧ inComparison before (rest ++ back).head? = false) := by
        rintro ⟨rfl, outside, -⟩
        have here := inside [] (List.prefix_append ['='] rest)
        rw [depthOf_nil] at here
        omega
      have later : ∀ left, left ++ ['='] <+: rest →
          1 ≤ depth + bracketNesting c + depthOf bracketNesting left := by
        intro left equals
        have here := inside (c :: left) ((List.prefix_cons_inj c).mpr equals)
        rw [depthOf_cons] at here
        omega
      have last : (c :: rest).getLast?.or before = rest.getLast?.or (some c) := by
        cases rest <;> simp [List.getLast?_cons]
      rw [List.cons_append, defaultValueFrom, if_neg kept, ih later, depthOf_cons, Int.add_assoc,
        last]

theorem IsDeclarator.defaultValue?_append {declarator value : List Char}
    (declares : IsDeclarator declarator) (shown : ∃ c ∈ value, isBlank c = false) :
    defaultValue? (declarator ++ ' ' :: '=' :: ' ' :: value) = some (trim value) := by
  have inside : ∀ left, left ++ ['='] <+: declarator → 1 ≤ 0 + depthOf bracketNesting left := by
    intro left equals
    rw [Int.zero_add]
    exact declares.inside left equals
  have outside : 0 + depthOf bracketNesting declarator + bracketNesting ' ' ≤ 0 := by
    have none : bracketNesting ' ' = 0 := rfl
    have closed := declares.closed
    omega
  have assigns : inComparison (some ' ') (' ' :: value).head? = false := rfl
  have some : (trim (' ' :: value)).isEmpty = false := by
    rw [trim_space_cons, List.isEmpty_eq_false_iff]
    exact trim_ne_nil shown
  rw [defaultValue?, defaultValueFrom_append inside, defaultValueFrom, if_neg (by simp),
    defaultValueFrom, if_pos ⟨rfl, outside, assigns⟩, if_neg (by simp [some]), trim_space_cons]

theorem IsDeclarator.defaultValue?_eq_none {declarator : List Char}
    (declares : IsDeclarator declarator) : defaultValue? declarator = none := by
  have inside : ∀ left, left ++ ['='] <+: declarator → 1 ≤ 0 + depthOf bracketNesting left := by
    intro left equals
    rw [Int.zero_add]
    exact declares.inside left equals
  have passed : defaultValueFrom 0 none (declarator ++ []) = _ := defaultValueFrom_append inside []
  rwa [List.append_nil] at passed

end Chars

namespace Text

/-- The value of a parameter is found as it was written, the white space around it aside; and a
parameter without a value has none. -/
theorem default_value_is_verbatim {declarator value : String}
    (declares : Chars.IsDeclarator declarator.toList)
    (shown : ∃ c ∈ value.toList, Chars.isBlank c = false) :
    defaultValue? (declarator ++ " = " ++ value) = some (trim value) ∧
      defaultValue? declarator = none := by
  have parts : (declarator ++ " = " ++ value).toList =
      declarator.toList ++ ' ' :: '=' :: ' ' :: value.toList := by
    simp
  refine ⟨?_, ?_⟩
  · rw [defaultValue?, parts, declares.defaultValue?_append shown]
    rfl
  · rw [defaultValue?, declares.defaultValue?_eq_none]
    rfl

/-- A comparison in the declarator closes a bracket too many, and the value has comparisons outside
brackets and a bracket in quotes. -/
theorem compared_value_is_verbatim :
    Chars.IsDeclarator "Box<(size >= 2)> box".toList ∧
      defaultValue? "Box<(size >= 2)> box =  a == b ? f(\"=(\") : x <= y " =
        some "a == b ? f(\"=(\") : x <= y" := by
  have declares : Chars.IsDeclarator "Box<(size >= 2)> box".toList := by
    decide +kernel
  have shown : ∃ c ∈ " a == b ? f(\"=(\") : x <= y ".toList, Chars.isBlank c = false :=
    ⟨'a', by simp, by decide⟩
  have found := (default_value_is_verbatim declares shown).1
  exact ⟨declares, found.trans (by decide +kernel)⟩

end Text

end Bindery
