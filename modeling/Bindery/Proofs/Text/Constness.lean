import Bindery.Proofs.Text.Beginnings
import Bindery.Proofs.Text.Composition

/-!
# Constness in a text

That a value is constant is read off the beginning of the spelling of its type, once the marks of
references have been taken off its end.  This goes right where the `const` of the type itself stands
in front, and no other one stands there without it.  A substitution of template parameters changes
nothing about that.
-/

set_option autoImplicit false

namespace Bindery

namespace Chars

/-- The last character of a text stays if it shows. -/
theorem getLast?_trim {cs : List Char} {c : Char} (shown : isBlank c = false)
    (last : cs.getLast? = some c) : (trim cs).getLast? = some c := by
  obtain ⟨⟨front, back, parts, blankFront, blankBack⟩, -, -⟩ := isTrimOf_trim cs
  have outside : ∀ {blanks : List Char}, IsBlankText blanks → blanks.getLast? ≠ some c := by
    intro blanks blank ends
    rw [blank c (List.mem_of_getLast? ends)] at shown
    cases shown
  rw [parts, List.getLast?_append, List.getLast?_append] at last
  cases behind : back.getLast? with
  | some d =>
      rw [behind, Option.some_or] at last
      exact absurd (behind.trans last) (outside blankBack)
  | none =>
      rw [behind, Option.none_or] at last
      cases core : (trim cs).getLast? with
      | some d => rwa [core, Option.some_or] at last
      | none =>
          rw [core, Option.none_or] at last
          exact absurd last (outside blankFront)

theorem dropEndWhile_append {p : Char → Bool} {others : List Char}
    (all : ∀ c ∈ others, p c = true) (cs : List Char) :
    dropEndWhile p (cs ++ others) = dropEndWhile p cs := by
  rw [dropEndWhile, List.reverse_append,
    List.dropWhile_append_of_pos fun c member => all c (List.mem_reverse.mp member), dropEndWhile]

theorem dropEndWhile_eq_self {p : Char → Bool} {cs : List Char} {c : Char}
    (last : cs.getLast? = some c) (other : p c = false) : dropEndWhile p cs = cs := by
  obtain ⟨front, rfl⟩ := List.getLast?_eq_some_iff.mp last
  rw [dropEndWhile, List.reverse_append, List.reverse_singleton, List.singleton_append,
    List.dropWhile_cons_of_neg (by simp [other]), List.reverse_cons, List.reverse_reverse]

end Chars

namespace Text

open Chars

/-! ## Marks of references -/

/-- A text without the marks of references at its end, and without white space around. -/
def withoutMarks (s : String) : String :=
  trim (dropEndCopies '&' s)

theorem withoutMarks_append {marks : String} (all : ∀ c ∈ marks.toList, c = '&') (s : String) :
    withoutMarks (s ++ marks) = withoutMarks s := by
  have same : dropEndCopies '&' (s ++ marks) = dropEndCopies '&' s := by
    rw [dropEndCopies, String.toList_append,
      dropEndWhile_append fun c member => beq_iff_eq.mpr (all c member), dropEndCopies]
  rw [withoutMarks, same, withoutMarks]

theorem isInfix_withoutMarks (s : String) : (withoutMarks s).toList <:+: s.toList := by
  have core : dropEndWhile (· == '&') s.toList <+: s.toList := by
    rw [dropEndWhile, ← List.reverse_suffix, List.reverse_reverse]
    exact List.dropWhile_suffix _
  obtain ⟨front, back, parts, -, -⟩ := (isTrimOf_trim (dropEndWhile (· == '&') s.toList)).around
  rw [withoutMarks, trim, dropEndCopies, String.toList_ofList, String.toList_ofList]
  exact List.IsInfix.trans ⟨front, back, parts.symm⟩ core.isInfix

theorem getLast?_withoutMarks {s : String} {c : Char} (shown : isBlank c = false) (other : c ≠ '&')
    (last : s.toList.getLast? = some c) : (withoutMarks s).toList.getLast? = some c := by
  have kept : dropEndWhile (· == '&') s.toList = s.toList :=
    dropEndWhile_eq_self last (beq_eq_false_iff_ne.mpr other)
  rw [withoutMarks, trim, dropEndCopies, String.toList_ofList, String.toList_ofList, kept]
  exact getLast?_trim shown last

/-! ## A `const` of its own -/

/-- How a text comes from the one without a `const` of its own: the `const` is put in front or, for
a pointer, behind.  Where another one stands in front, it may be left out. -/
inductive Qualified (bare : String) : (isConst isBehind : Bool) → String → Prop
  | plain : Qualified bare false false bare
  | front : Qualified bare true false ("const " ++ bare)
  | shared {isConst : Bool} (starts : startsWith "const " bare = true) :
      Qualified bare isConst false bare
  | behind (ends : ∃ c ∈ bare.toList.getLast?, isIdentChar c = false) :
      Qualified bare true true (bare ++ " const")

/-- Whether a text, taken without references, tells of a `const` in front and of the text behind. -/
def TellsConst (text : String) (isConst : Bool) (bare : String) : Prop :=
  startsWith "const " (withoutMarks text) = isConst ∧
    dropCopies "const " (withoutMarks text) = bare

theorem tellsConst_append {marks : String} (all : ∀ c ∈ marks.toList, c = '&') (text : String)
    (isConst : Bool) (bare : String) :
    TellsConst (text ++ marks) isConst bare ↔ TellsConst text isConst bare := by
  rw [TellsConst, TellsConst, withoutMarks_append all]

/-- Whether the front of a text shows the `const` of its own and no other one: that does not stand
behind, none stands in front of the text without it, and no mark or white space is around. -/
structure ShowsOwnConst (isBehind : Bool) (bare text : String) : Prop where
  inFront : isBehind = false
  alone : startsWith "const " bare = false
  unmarked : withoutMarks text = text

theorem length_const_pos : 0 < "const ".toList.length := by
  decide

/-- If the whole text behind a `const ` is left, then nothing was taken off the ends. -/
theorem withoutMarks_const_append {bare : String}
    (told : startsWith "const " (withoutMarks ("const " ++ bare)) = true)
    (rest : dropCopies "const " (withoutMarks ("const " ++ bare)) = bare) :
    withoutMarks ("const " ++ bare) = "const " ++ bare := by
  obtain ⟨later, whole⟩ := exists_of_startsWith told
  rw [whole, dropCopies_append length_const_pos] at rest
  have shorter : bare.toList.length ≤ later.toList.length := by
    rw [← rest]
    exact (dropCopies_suffix "const " later).length_le
  have long : ("const " ++ bare).toList.length ≤
      (withoutMarks ("const " ++ bare)).toList.length := by
    rw [whole, String.toList_append, String.toList_append, List.length_append, List.length_append]
    omega
  exact String.toList_inj.mp ((isInfix_withoutMarks ("const " ++ bare)).eq_of_length_le long)

/-- What is left of a text with a `const` behind ends in the letter of that. -/
theorem dropCopies_append_const_ne {bare : String}
    (ends : ∃ c ∈ bare.toList.getLast?, isIdentChar c = false) :
    dropCopies "const " (withoutMarks (bare ++ " const")) ≠ bare := by
  intro rest
  obtain ⟨c, last, other⟩ := ends
  have word : " const".toList.getLast? = some 't' := rfl
  have written : (bare ++ " const").toList.getLast? = some 't' := by
    rw [String.toList_append, List.getLast?_append, word, Option.some_or]
  have kept := getLast?_withoutMarks (by decide) (by decide) written
  obtain ⟨front, whole⟩ := dropCopies_suffix "const " (withoutMarks (bare ++ " const"))
  rw [← whole, rest, List.getLast?_append, Option.mem_def.mp last, Option.some_or] at kept
  cases Option.some.inj kept
  exact absurd other (by decide)

/-- What a text tells of is its own `const` exactly if its front shows that. -/
theorem Qualified.tellsConst_iff {bare text : String} {isConst isBehind : Bool}
    (qualified : Qualified bare isConst isBehind text) :
    TellsConst text isConst bare ↔ ShowsOwnConst isBehind bare text := by
  constructor
  · rintro ⟨told, rest⟩
    have alone : startsWith "const " bare = false :=
      rest ▸ startsWith_dropCopies length_const_pos (withoutMarks text)
    cases qualified with
    | plain => exact ⟨rfl, alone, (dropCopies_of_plain told).symm.trans rest⟩
    | front => exact ⟨rfl, alone, withoutMarks_const_append told rest⟩
    | shared starts => exact absurd (alone.symm.trans starts) Bool.false_ne_true
    | behind ends => exact absurd rest (dropCopies_append_const_ne ends)
  · rintro ⟨inFront, alone, unmarked⟩
    rw [TellsConst, unmarked]
    cases qualified with
    | plain => exact ⟨alone, dropCopies_of_plain alone⟩
    | front =>
        rw [dropCopies_append length_const_pos, dropCopies_of_plain alone]
        exact ⟨startsWith_append _ bare, rfl⟩
    | shared starts => exact absurd (alone.symm.trans starts) Bool.false_ne_true
    | behind => cases inFront

/-! ## Substitution -/

section

variable {params args : List String}

theorem substitute_nil (s : String) (args : List String) : substitute s [] args = s := by
  have unknown (word : List Char) : meaningOf [] args word = none := rfl
  rw [← String.toList_inj, toList_substitute, replaceWords_eq_self_iff]
  · exact fun word _ => unknown word
  · exact fun word text known => absurd ((unknown word).symm.trans known) (by simp)

theorem substitute_append_others {others : String}
    (plain : ∀ c ∈ others.toList, isIdentChar c = false) (s : String) :
    substitute (s ++ others) params args = substitute s params args ++ others := by
  have apart : StartsApart others.toList := fun c first => plain c (List.mem_of_head? first)
  rw [← String.toList_inj, toList_substitute, String.toList_append, String.toList_append,
    toList_substitute, replaceWords_append _ _ apart, replaceWords_others plain]

/-- A word that is no parameter stays. -/
theorem replacement?_eq_none_of_not_mem {run : List Char} (other : String.ofList run ∉ params)
    (front : List Char) : replacement? (meaningOf params args) front run = none := by
  rw [replacement?_eq, meaningOf, lookup_zip_eq_none other]
  simp

theorem substitute_const_append (keyword : "const" ∉ params) (s : String) :
    substitute ("const " ++ s) params args = "const " ++ substitute s params args := by
  have isRun : IsRun "const".toList (' ' :: s.toList) :=
    ⟨by decide, List.all_eq_true.mp (by decide), by simp [StartsApart]; decide⟩
  have ends : EndsSolid "const ".toList := ⟨"cons".toList, 't', [' '], by decide, by decide, by
    simp [IsBlankText]; decide⟩
  have alike : EndAlike "const ".toList [] := fun later => ends.endsInScope_append [] later
  have whole : ("const " ++ s).toList = "const".toList ++ ' ' :: s.toList := by simp
  have stays : replacement? (meaningOf params args) [] "const".toList = none :=
    replacement?_eq_none_of_not_mem keyword []
  rw [← String.toList_inj, toList_substitute, whole, isRun.replaceWords_append, stays,
    replaceWords_plain (by decide), String.toList_append, toList_substitute,
    ← replaceWords_congr alike]
  rfl

theorem substitute_append_const (keyword : "const" ∉ params) (s : String) :
    substitute (s ++ " const") params args = substitute s params args ++ " const" := by
  have apart : StartsApart " const".toList := by simp [StartsApart]; decide
  have isRun : IsRun "const".toList [] :=
    ⟨by decide, List.all_eq_true.mp (by decide), startsApart_nil⟩
  have stays (front : List Char) :
      Chars.replaceWords (meaningOf params args) front (' ' :: "const".toList) =
        ' ' :: "const".toList := by
    rw [replaceWords_plain (by decide),
      isRun.replaceWords_eq_self (replacement?_eq_none_of_not_mem keyword _)]
  have whole : " const".toList = ' ' :: "const".toList := rfl
  rw [← String.toList_inj, toList_substitute, String.toList_append, String.toList_append,
    toList_substitute, replaceWords_append _ _ apart, whole, stays]

end

theorem Qualified.substitute {bare text : String} {isConst isBehind : Bool} {params : List String}
    (qualified : Qualified bare isConst isBehind text) (keyword : "const" ∉ params)
    (args : List String) :
    Qualified (substitute bare params args) isConst isBehind (substitute text params args) := by
  cases qualified with
  | plain => exact .plain
  | front =>
      rw [substitute_const_append keyword]
      exact .front
  | shared starts =>
      obtain ⟨rest, rfl⟩ := exists_of_startsWith starts
      rw [substitute_const_append keyword]
      exact .shared (startsWith_append _ _)
  | behind ends =>
      rw [substitute_append_const keyword]
      refine .behind ?_
      obtain ⟨c, last, other⟩ := ends
      obtain ⟨front, parts⟩ := List.getLast?_eq_some_iff.mp last
      have whole : bare = String.ofList front ++ String.ofList [c] := by
        rw [← String.toList_inj, String.toList_append, String.toList_ofList, String.toList_ofList,
          parts]
      rw [whole, substitute_append_others (by simpa using other)]
      exact ⟨c, by simp, other⟩

end Text

end Bindery
