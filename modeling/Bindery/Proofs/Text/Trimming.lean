import Bindery.Text.Blank
import Mathlib.Data.List.TakeWhile

/-!
# Trimmed texts

Trimming takes white space from both ends of a text and nothing else, until a character shows at
either end or none is left.
-/

set_option autoImplicit false

namespace Bindery

namespace Chars

/-- No character of a text shows. -/
def IsBlankText (cs : List Char) : Prop :=
  ∀ c ∈ cs, isBlank c = true

/-- What a text is without the white space at both ends. -/
structure IsTrimOf (core cs : List Char) : Prop where
  around : ∃ front back, cs = front ++ core ++ back ∧ IsBlankText front ∧ IsBlankText back
  first : ∀ c ∈ core.head?, isBlank c = false
  last : ∀ c ∈ core.getLast?, isBlank c = false

theorem isBlank_of_mem_head?_dropWhile {cs : List Char} {c : Char}
    (first : c ∈ (cs.dropWhile isBlank).head?) : isBlank c = false := by
  have shown := List.head?_dropWhile_not isBlank cs
  rw [Option.mem_def.mp first] at shown
  simpa using shown

theorem isTrimOf_trim (cs : List Char) : IsTrimOf (trim cs) cs := by
  have front : cs = cs.takeWhile isBlank ++ trimStart cs := List.takeWhile_append_dropWhile.symm
  have back : trimStart cs = trim cs ++ ((trimStart cs).reverse.takeWhile isBlank).reverse := by
    rw [trim, trimEnd, ← List.reverse_append, List.takeWhile_append_dropWhile, List.reverse_reverse]
  refine ⟨⟨cs.takeWhile isBlank, ((trimStart cs).reverse.takeWhile isBlank).reverse, ?_, ?_, ?_⟩,
    ?_, ?_⟩
  · rw [List.append_assoc, ← back, ← front]
  · exact fun c member => List.mem_takeWhile_imp member
  · exact fun c member => List.mem_takeWhile_imp (List.mem_reverse.mp member)
  · intro c first
    have same : c ∈ (trimStart cs).head? := by
      rw [Option.mem_def, back, List.head?_append, Option.mem_def.mp first, Option.some_or]
    exact isBlank_of_mem_head?_dropWhile same
  · intro c last
    rw [trim, trimEnd, List.getLast?_reverse] at last
    exact isBlank_of_mem_head?_dropWhile last

theorem trim_ne_nil {cs : List Char} (shown : ∃ c ∈ cs, isBlank c = false) : trim cs ≠ [] := by
  intro nothing
  obtain ⟨c, member, visible⟩ := shown
  obtain ⟨⟨front, back, parts, blankFront, blankBack⟩, -, -⟩ := isTrimOf_trim cs
  rw [nothing, List.append_nil] at parts
  have blank : isBlank c = true := by
    rw [parts] at member
    exact (List.mem_append.mp member).elim (blankFront c) (blankBack c)
  rw [visible] at blank
  cases blank

theorem trim_eq_self {cs : List Char} (first : ∀ c ∈ cs.head?, isBlank c = false)
    (last : ∀ c ∈ cs.getLast?, isBlank c = false) : trim cs = cs := by
  have kept : ∀ {cs : List Char}, (∀ c ∈ cs.head?, isBlank c = false) →
      cs.dropWhile isBlank = cs := by
    intro cs first
    cases cs with
    | nil => rfl
    | cons c rest => exact List.dropWhile_cons_of_neg (by simp [first c rfl])
  rw [trim, trimStart, kept first, trimEnd, kept, List.reverse_reverse]
  rwa [List.head?_reverse]

theorem trim_eq_self_iff {cs : List Char} :
    trim cs = cs ↔
      (∀ c ∈ cs.head?, isBlank c = false) ∧ ∀ c ∈ cs.getLast?, isBlank c = false := by
  constructor
  · intro trimmed
    have core := isTrimOf_trim cs
    rw [trimmed] at core
    exact ⟨core.first, core.last⟩
  · exact fun ⟨first, last⟩ => trim_eq_self first last

theorem trim_append {front core back : List Char} (blankFront : IsBlankText front)
    (blankBack : IsBlankText back) (first : ∀ c ∈ core.head?, isBlank c = false)
    (last : ∀ c ∈ core.getLast?, isBlank c = false) (nonempty : core ≠ []) :
    trim (front ++ core ++ back) = core := by
  obtain ⟨c, rest, rfl⟩ := List.exists_cons_of_ne_nil nonempty
  have shown := first c rfl
  have start : trimStart (front ++ (c :: rest) ++ back) = (c :: rest) ++ back := by
    rw [trimStart, List.append_assoc, List.dropWhile_append_of_pos blankFront, List.cons_append,
      List.dropWhile_cons_of_neg (by simp [shown])]
  rw [trim, start, trimEnd, List.reverse_append, List.dropWhile_append_of_pos fun d member =>
    blankBack d (List.mem_reverse.mp member)]
  have whole := trim_eq_self first last
  rwa [trim, trimStart, List.dropWhile_cons_of_neg (by simp [shown])] at whole

/-! ## Characters that stay -/

theorem mem_of_mem_trim {cs : List Char} {c : Char} (member : c ∈ trim cs) : c ∈ cs := by
  obtain ⟨⟨front, back, parts, -, -⟩, -, -⟩ := isTrimOf_trim cs
  rw [parts]
  exact List.mem_append_left _ (List.mem_append_right _ member)

theorem mem_trim {c : Char} (shown : isBlank c = false) (cs : List Char) :
    c ∈ trim cs ↔ c ∈ cs := by
  refine ⟨mem_of_mem_trim, fun member => ?_⟩
  obtain ⟨⟨front, back, parts, blankFront, blankBack⟩, -, -⟩ := isTrimOf_trim cs
  have outside : ∀ {blanks : List Char}, IsBlankText blanks → c ∉ blanks :=
    fun blank inside => by simpa [shown] using blank c inside
  rw [parts, List.mem_append, List.mem_append] at member
  exact (member.resolve_right (outside blankBack)).resolve_left (outside blankFront)

theorem mem_dropCopies {head : List Char} {c : Char} (other : c ∉ head) (cs : List Char) :
    c ∈ dropCopies head cs ↔ c ∈ cs := by
  fun_induction dropCopies head cs with
  | case1 cs present ih =>
      obtain ⟨rest, rfl⟩ := List.isPrefixOf_iff_prefix.mp present.2
      rw [ih, List.drop_left, List.mem_append]
      exact (or_iff_right other).symm
  | case2 => exact Iff.rfl

end Chars

end Bindery
