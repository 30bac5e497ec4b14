import Bindery.Proofs.Text.ArgumentLists
import Bindery.Proofs.Text.Composition

/-!
# Lists in rewritten texts

Where a text is split into lists of arguments is told from its brackets and commas alone.  Names
have none, so replacing names by names goes on inside the pieces: the pieces of the new text are the
rewritten pieces of the old one.
-/

set_option autoImplicit false

namespace Bindery

namespace Chars

/-! ## Marks -/

/-- The characters by which a text is split into lists of arguments. -/
def isMark (c : Char) : Bool :=
  ['<', '>', '(', ')', ','].contains c

/-- The brackets and commas of a text, without what stands between them. -/
def marks (cs : List Char) : List Char :=
  cs.filter isMark

theorem marks_append (left right : List Char) : marks (left ++ right) = marks left ++ marks right :=
  List.filter_append left right

theorem marks_eq_nil {cs : List Char} (plain : ∀ c ∈ cs, isMark c = false) : marks cs = [] := by
  refine List.filter_eq_nil_iff.mpr fun c member => ?_
  simp [plain c member]

theorem mem_marks {c : Char} (mark : isMark c = true) (cs : List Char) : c ∈ marks cs ↔ c ∈ cs := by
  rw [marks, List.mem_filter, and_iff_left mark]

/-- A depth that only brackets move. -/
def IsBracketDepth (nested : Char → Int) : Prop :=
  ∀ c, isMark c = false → nested c = 0

theorem isBracketDepth_nesting : IsBracketDepth nesting := by
  intro c plain
  simp only [isMark, List.contains_eq_mem, decide_eq_false_iff_not, List.mem_cons, not_or] at plain
  simp [nesting, plain]

theorem isBracketDepth_angleNesting : IsBracketDepth angleNesting := by
  intro c plain
  simp only [isMark, List.contains_eq_mem, decide_eq_false_iff_not, List.mem_cons, not_or] at plain
  simp [angleNesting, plain]

section

variable {nested : Char → Int}

theorem depthOf_marks (bracket : IsBracketDepth nested) (cs : List Char) :
    depthOf nested (marks cs) = depthOf nested cs := by
  induction cs with
  | nil => rfl
  | cons c cs ih =>
      rw [marks, List.filter_cons]
      cases mark : isMark c with
      | true => exact congrArg (nested c + ·) ih
      | false =>
          rw [depthOf_cons, bracket c mark, Int.zero_add]
          exact ih

theorem depthOf_congr (bracket : IsBracketDepth nested) {left right : List Char}
    (same : marks left = marks right) : depthOf nested left = depthOf nested right := by
  rw [← depthOf_marks bracket left, same, depthOf_marks bracket]

/-- Each front of the marks of a text comes from a front of the text. -/
theorem exists_front_of_marks {cs front : List Char} (isFront : front <+: marks cs) :
    ∃ start, start <+: cs ∧ marks start = front := by
  obtain ⟨behind, whole⟩ := isFront
  obtain ⟨start, rest, rfl, same, -⟩ := List.filter_eq_append_iff.mp whole.symm
  exact ⟨start, List.prefix_append start rest, same⟩

theorem isBalanced_congr (bracket : IsBracketDepth nested) {left right : List Char}
    (same : marks left = marks right) (balanced : IsBalanced nested left) :
    IsBalanced nested right := by
  constructor
  · intro front isFront
    have shown : marks front <+: marks left := same ▸ isFront.filter isMark
    obtain ⟨start, isStart, alike⟩ := exists_front_of_marks shown
    rw [← depthOf_congr bracket alike]
    exact balanced.opened start isStart
  · rw [← depthOf_congr bracket same]
    exact balanced.closed

/-- What stands before a comma of a text has the marks of what stands before one of the other. -/
theorem exists_comma_of_marks {left right front : List Char} (same : marks left = marks right)
    (comma : front ++ [','] <+: right) :
    ∃ start, start ++ [','] <+: left ∧ marks start = marks front := by
  have shown : marks front ++ [','] <+: marks left := by
    rw [same]
    simpa [marks_append, marks, isMark] using comma.filter isMark
  obtain ⟨whole, ⟨rest, rfl⟩, alike⟩ := exists_front_of_marks shown
  obtain ⟨start, last, rfl, before, isLast⟩ := List.filter_eq_append_iff.mp alike
  obtain ⟨between, after, rfl, unmarked, -, -⟩ := List.filter_eq_cons_iff.mp isLast
  refine ⟨start ++ between, ⟨after ++ rest, by simp⟩, ?_⟩
  have nothing : marks between = [] := List.filter_eq_nil_iff.mpr unmarked
  rw [marks_append, nothing, List.append_nil]
  exact before

end

/-! ## Commas in brackets -/

theorem HasInnerCommas.congr {left right : List Char} (same : marks left = marks right)
    (inner : HasInnerCommas left) : HasInnerCommas right := by
  intro front comma
  obtain ⟨start, isStart, alike⟩ := exists_comma_of_marks same comma
  rw [← depthOf_congr isBracketDepth_nesting alike]
  exact inner start isStart

/-! ## Rewritten texts -/

/-- Names are replaced by texts in which there are neither white space nor brackets nor commas. -/
def KeepsLists (meaning : List Char → Option (List Char)) : Prop :=
  ∀ word text, meaning word = some text →
    text ≠ [] ∧ ∀ c ∈ text, isBlank c = false ∧ isMark c = false

section

variable {meaning : List Char → Option (List Char)}

theorem replaceWords_append_cons {c : Char} (separator : isSeparator c = true)
    (front left right : List Char) :
    replaceWords meaning front (left ++ c :: right) =
      replaceWords meaning front left ++ c :: replaceWords meaning [] right := by
  obtain ⟨solid, other⟩ : isSolid c = true ∧ isIdentChar c = false := by
    simpa [isSeparator] using separator
  have apart : StartsApart (c :: right) := by
    intro d first
    cases first
    exact other
  have anew : EndAlike (front ++ left ++ [c]) [] := by
    intro cs
    rw [List.append_assoc, List.singleton_append, endsInScope_append solid]
    rfl
  rw [replaceWords_append front left apart, replaceWords_plain other, replaceWords_congr anew]

theorem isMark_eq_false_of_isIdentChar {c : Char} (ident : isIdentChar c = true) :
    isMark c = false := by
  have others : ∀ d ∈ ['<', '>', '(', ')', ','], isIdentChar d = false :=
    List.all_iff_forall_prop.mp (by decide)
  refine Bool.eq_false_iff.mpr fun mark => ?_
  rw [isMark, List.contains_iff_mem] at mark
  rw [others c mark] at ident
  cases ident

/-- What is written for a run shows, and has no marks. -/
theorem KeepsLists.replacement (keeps : KeepsLists meaning) (front : List Char)
    {run : List Char} (nonempty : run ≠ []) (ident : ∀ c ∈ run, isIdentChar c = true) :
    (replacement? meaning front run).getD run ≠ [] ∧
      ∀ c ∈ (replacement? meaning front run).getD run, isBlank c = false ∧ isMark c = false := by
  cases written : replacement? meaning front run with
  | none =>
      exact ⟨nonempty, fun c member => ⟨isBlank_eq_false_of_isIdentChar (ident c member),
        isMark_eq_false_of_isIdentChar (ident c member)⟩⟩
  | some text =>
      rw [replacement?_eq, Option.ite_none_right_eq_some] at written
      exact keeps run text written.2

theorem KeepsLists.marks_replaceWords (keeps : KeepsLists meaning) (front cs : List Char) :
    marks (replaceWords meaning front cs) = marks cs := by
  fun_induction replaceWords meaning front cs with
  | case1 => rfl
  | case2 front c rest ident run =>
      rename_i ih
      have isRun := isRun_takeWhile ident rest
      have cut : c :: rest = run ++ rest.dropWhile isIdentChar := by
        simp [run, List.takeWhile_append_dropWhile]
      have written := (keeps.replacement front isRun.nonempty isRun.ident).2
      rw [cut, marks_append, marks_append, ih, marks_eq_nil fun d member => (written d member).2,
        marks_eq_nil fun d member => isMark_eq_false_of_isIdentChar (isRun.ident d member)]
  | case3 front c rest other ih =>
      rw [marks, marks, List.filter_cons, List.filter_cons]
      exact if_congr Iff.rfl (congrArg (c :: ·) ih) ih

/-- A list in a rewritten text is the rewritten list. -/
theorem KeepsLists.splitTemplate_replaceWords (keeps : KeepsLists meaning)
    {cs base args rest : List Char} (split : splitTemplate cs = some (base, args, rest)) :
    splitTemplate (replaceWords meaning [] cs) =
      some (replaceWords meaning [] base, replaceWords meaning [] args,
        replaceWords meaning [] rest) := by
  obtain ⟨rfl, plain, balanced⟩ := splitTemplate_eq_some_iff.mp split
  have angle : isMark '<' = true := by decide
  refine splitTemplate_eq_some_iff.mpr ⟨?_, fun member => plain ?_, ?_⟩
  · rw [replaceWords_append_cons (by decide), replaceWords_append_cons (by decide)]
  · rwa [← mem_marks angle, keeps.marks_replaceWords, mem_marks angle] at member
  · exact isBalanced_congr isBracketDepth_angleNesting (keeps.marks_replaceWords [] args).symm
      balanced

theorem KeepsLists.argumentPieces_replaceWords (keeps : KeepsLists meaning) (cs : List Char) :
    argumentPieces 0 (replaceWords meaning [] cs) =
      (argumentPieces 0 cs).map (replaceWords meaning []) := by
  rcases exists_first_comma cs with inner | ⟨piece, rest, whole, inner, level⟩
  · have same := keeps.marks_replaceWords [] cs
    rw [inner.argumentPieces_eq, (inner.congr same.symm).argumentPieces_eq, List.map_singleton]
  · have shorter : rest.length < cs.length := by
      rw [whole, List.length_append, List.length_cons]
      omega
    have same := keeps.marks_replaceWords [] piece
    have there := (depthOf_congr isBracketDepth_nesting same).trans level
    have behind := keeps.argumentPieces_replaceWords rest
    rw [whole, replaceWords_append_cons (by decide), inner.argumentPieces_cons level,
      (inner.congr same.symm).argumentPieces_cons there, behind, List.map_cons]
termination_by cs.length

/-! ## Trimming -/

theorem isIdentChar_eq_false_of_isBlank {c : Char} (blank : isBlank c = true) :
    isIdentChar c = false := by
  refine Bool.eq_false_iff.mpr fun ident => ?_
  rw [isBlank_eq_false_of_isIdentChar ident] at blank
  cases blank

theorem replaceWords_blank_append {blanks : List Char} (blank : IsBlankText blanks)
    (front cs : List Char) :
    replaceWords meaning front (blanks ++ cs) =
      blanks ++ replaceWords meaning (front ++ blanks) cs :=
  replaceWords_others_append (fun c member => isIdentChar_eq_false_of_isBlank (blank c member))
    front cs

theorem replaceWords_blank {blanks : List Char} (blank : IsBlankText blanks) (front : List Char) :
    replaceWords meaning front blanks = blanks :=
  replaceWords_others (fun c member => isIdentChar_eq_false_of_isBlank (blank c member)) front

theorem KeepsLists.head?_replaceWords (keeps : KeepsLists meaning) {front cs : List Char}
    (first : ∀ c ∈ cs.head?, isBlank c = false) :
    ∀ c ∈ (replaceWords meaning front cs).head?, isBlank c = false := by
  cases cs with
  | nil =>
      rw [replaceWords]
      intro d isFirst
      cases isFirst
  | cons c rest =>
      cases ident : isIdentChar c with
      | false =>
          rw [replaceWords_plain ident]
          exact first
      | true =>
          have isRun := isRun_takeWhile ident rest
          obtain ⟨nonempty, shown⟩ := keeps.replacement front isRun.nonempty isRun.ident
          rw [replaceWords, if_pos ident]
          intro d isFirst
          rw [Option.mem_def, List.head?_append_of_ne_nil _ nonempty] at isFirst
          exact (shown d (List.mem_of_mem_head? isFirst)).1

theorem KeepsLists.getLast?_replaceWords (keeps : KeepsLists meaning) (front : List Char)
    {cs : List Char} (nonempty : cs ≠ []) (last : ∀ c ∈ cs.getLast?, isBlank c = false) :
    replaceWords meaning front cs ≠ [] ∧
      ∀ c ∈ (replaceWords meaning front cs).getLast?, isBlank c = false := by
  fun_induction replaceWords meaning front cs with
  | case1 => exact absurd rfl nonempty
  | case2 front c rest ident run =>
      rename_i ih
      have isRun := isRun_takeWhile ident rest
      obtain ⟨written, shown⟩ := keeps.replacement front isRun.nonempty isRun.ident
      refine ⟨fun empty => written (List.append_eq_nil_iff.mp empty).1, ?_⟩
      by_cases stops : rest.dropWhile isIdentChar = []
      · rw [stops, replaceWords, List.append_nil]
        exact fun d isLast => (shown d (List.mem_of_mem_getLast? isLast)).1
      · have cut : c :: rest = run ++ rest.dropWhile isIdentChar := by
          simp [run, List.takeWhile_append_dropWhile]
        rw [cut, List.getLast?_append_of_ne_nil _ stops] at last
        obtain ⟨some, behind⟩ := ih stops last
        rwa [List.getLast?_append_of_ne_nil _ some]
  | case3 front c rest other ih =>
      refine ⟨List.cons_ne_nil _ _, ?_⟩
      by_cases stops : rest = []
      · rw [stops, replaceWords]
        rwa [stops] at last
      · rw [List.getLast?_cons_of_ne_nil stops] at last
        obtain ⟨some, behind⟩ := ih stops last
        rwa [List.getLast?_cons_of_ne_nil some]

theorem KeepsLists.trim_replaceWords (keeps : KeepsLists meaning) (cs : List Char) :
    trim (replaceWords meaning [] cs) = replaceWords meaning [] (trim cs) := by
  obtain ⟨⟨front, back, parts, blankFront, blankBack⟩, first, last⟩ := isTrimOf_trim cs
  by_cases nothing : trim cs = []
  · have blank : IsBlankText cs := by
      rw [parts, nothing, List.append_nil]
      exact fun c member => (List.mem_append.mp member).elim (blankFront c) (blankBack c)
    rw [replaceWords_blank blank, nothing, replaceWords]
  · have whole : replaceWords meaning [] cs =
        front ++ replaceWords meaning [] (trim cs) ++ back := by
      have anew : EndAlike ([] ++ front) [] := endsInScope_blank_append blankFront
      have apart : StartsApart back := fun c isFirst =>
        isIdentChar_eq_false_of_isBlank (blankBack c (List.mem_of_mem_head? isFirst))
      have read := congrArg (replaceWords meaning []) parts
      rwa [replaceWords_append _ _ apart, replaceWords_blank blankBack,
        replaceWords_blank_append blankFront, replaceWords_congr anew] at read
    obtain ⟨some, lastShown⟩ := keeps.getLast?_replaceWords [] nothing last
    rw [whole, trim_append blankFront blankBack (keeps.head?_replaceWords first) lastShown some]

/-- The arguments of a rewritten list are the rewritten arguments. -/
theorem KeepsLists.templateArgs_replaceWords (keeps : KeepsLists meaning) (cs : List Char) :
    templateArgs (replaceWords meaning [] cs) =
      (templateArgs cs).map (replaceWords meaning []) := by
  have empty : ∀ arg : List Char, (replaceWords meaning [] (trim arg)).isEmpty =
      (trim arg).isEmpty := by
    intro arg
    by_cases nothing : trim arg = []
    · rw [nothing, replaceWords]
    · have some := (keeps.getLast?_replaceWords [] nothing
        (isTrimOf_trim arg).last).1
      rw [List.isEmpty_eq_false_iff.mpr some, List.isEmpty_eq_false_iff.mpr nothing]
  rw [templateArgs, templateArgs, keeps.argumentPieces_replaceWords, List.map_map, List.filter_map,
    List.filter_map, List.map_map]
  simp only [Function.comp_def, keeps.trim_replaceWords, empty]

end

end Chars

end Bindery
