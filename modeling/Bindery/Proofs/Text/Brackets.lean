import Bindery.Proofs.Text.ScopeCount
import Bindery.Proofs.Text.ScopePath
import Bindery.Proofs.Text.Trimming
import Mathlib.Data.Bool.AllAny

/-!
# Lists inside arguments

A list of arguments in angle brackets can be put into an argument, taken out of it or exchanged for
another list: what remains is an argument, as long as both kinds of brackets are closed in the
lists.
-/

set_option autoImplicit false

namespace Bindery

namespace Chars

theorem prefix_append_cases {front left right : List Char} (isFront : front <+: left ++ right) :
    front <+: left ∨ ∃ added, front = left ++ added ∧ added <+: right := by
  rcases List.prefix_or_prefix_of_prefix isFront (List.prefix_append left right) with
    inside | ⟨added, rfl⟩
  · exact .inl inside
  · exact .inr ⟨added, rfl, (List.prefix_append_right_inj left).mp isFront⟩

/-- A character of two texts, with all that stands before it, is one of the first text or one of
the second. -/
theorem prefix_concat_append_cases {front left right : List Char} {c : Char}
    (isFront : front ++ [c] <+: left ++ right) :
    front ++ [c] <+: left ∨ ∃ added, front = left ++ added ∧ added ++ [c] <+: right := by
  rcases prefix_append_cases isFront with inside | ⟨added, same, behind⟩
  · exact .inl inside
  · rcases List.eq_nil_or_concat added with rfl | ⟨before, last, rfl⟩
    · exact .inl ⟨[], by rw [same, List.append_nil, List.append_nil]⟩
    · rw [List.concat_eq_append] at same behind
      rw [← List.append_assoc] at same
      obtain ⟨rfl, rfl⟩ := List.append_singleton_inj.mp same
      exact .inr ⟨before, rfl, behind⟩

/-! ## Balanced texts -/

/-- A balanced text may stand in a text or not. -/
theorem isBalanced_insert {nested : Char → Int} {front inner behind : List Char}
    (balanced : IsBalanced nested inner) :
    IsBalanced nested (front ++ inner ++ behind) ↔ IsBalanced nested (front ++ behind) := by
  constructor
  · intro whole
    constructor
    · intro start isFront
      rcases prefix_append_cases isFront with inside | ⟨added, rfl, later⟩
      · have before := inside.trans ((List.prefix_append front inner).trans
          (List.prefix_append _ behind))
        exact whole.opened start before
      · have level := whole.opened (front ++ inner ++ added)
          ((List.prefix_append_right_inj _).mpr later)
        simpa [balanced.closed] using level
    · have level := whole.closed
      simpa [balanced.closed] using level
  · intro without
    constructor
    · intro start isFront
      rcases prefix_append_cases isFront with inside | ⟨added, rfl, later⟩
      · rcases prefix_append_cases inside with before | ⟨added, rfl, within⟩
        · exact without.opened start (before.trans (List.prefix_append front behind))
        · have level := without.opened front (List.prefix_append front behind)
          have deeper := balanced.opened added within
          rw [depthOf_append]
          omega
      · have level := without.opened (front ++ added)
          ((List.prefix_append_right_inj _).mpr later)
        simpa [balanced.closed] using level
    · have level := without.closed
      simpa [balanced.closed] using level

/-- Both kinds of brackets are balanced. -/
structure IsNested (cs : List Char) : Prop where
  angles : IsBalanced angleNesting cs
  parens : IsBalanced parenNesting cs

namespace IsNested

theorem of_neutral {cs : List Char} (neutral : ∀ c ∈ cs, angleNesting c = 0 ∧ parenNesting c = 0) :
    IsNested cs :=
  ⟨isBalanced_of_neutral fun c member => (neutral c member).1,
    isBalanced_of_neutral fun c member => (neutral c member).2⟩

theorem append {left right : List Char} (first : IsNested left) (second : IsNested right) :
    IsNested (left ++ right) :=
  ⟨first.angles.append second.angles, first.parens.append second.parens⟩

theorem intercalate {separator : List Char} {args : List (List Char)}
    (neutral : ∀ c ∈ separator, angleNesting c = 0 ∧ parenNesting c = 0)
    (arguments : ∀ cs ∈ args, IsNested cs) : IsNested (separator.intercalate args) :=
  ⟨isBalanced_intercalate (fun c member => (neutral c member).1)
      fun cs member => (arguments cs member).angles,
    isBalanced_intercalate (fun c member => (neutral c member).2)
      fun cs member => (arguments cs member).parens⟩

theorem opened {cs : List Char} (isNested : IsNested cs) {front : List Char}
    (isFront : front <+: cs) : 0 ≤ depthOf nesting front := by
  have angles := isNested.angles.opened front isFront
  have parens := isNested.parens.opened front isFront
  rw [depthOf_nesting]
  omega

theorem closed {cs : List Char} (isNested : IsNested cs) : depthOf nesting cs = 0 := by
  rw [depthOf_nesting, isNested.angles.closed, isNested.parens.closed]
  rfl

/-- A nested text in angle brackets. -/
theorem list {args : List Char} (isNested : IsNested args) : IsNested ('<' :: args ++ ['>']) := by
  have angle : IsBalanced angleNesting (['<'] ++ ['>']) := by decide
  have paren : IsBalanced parenNesting (['<'] ++ ['>']) := by decide
  exact ⟨(isBalanced_insert isNested.angles).mpr angle,
    (isBalanced_insert isNested.parens).mpr paren⟩

end IsNested

/-! ## Arguments with a list -/

/-- A nested text whose commas all stand in brackets. -/
structure IsEnclosed (cs : List Char) : Prop extends IsNested cs where
  commas : ∀ front, front ++ [','] <+: cs → 0 < depthOf nesting front

theorem isArgument_iff_isEnclosed {cs : List Char} :
    IsArgument cs ↔ cs ≠ [] ∧ trim cs = cs ∧ IsEnclosed cs :=
  ⟨fun argument => ⟨argument.nonempty, argument.trimmed,
      ⟨⟨argument.angles, argument.parens⟩, argument.commas⟩⟩,
    fun ⟨nonempty, trimmed, enclosed⟩ =>
      ⟨nonempty, trimmed, enclosed.angles, enclosed.parens, enclosed.commas⟩⟩

theorem IsArgument.isEnclosed {cs : List Char} (argument : IsArgument cs) : IsEnclosed cs :=
  (isArgument_iff_isEnclosed.mp argument).2.2

theorem isEnclosed_of_plain {cs : List Char} (nested : IsNested cs) (plain : ',' ∉ cs) :
    IsEnclosed cs := by
  refine ⟨nested, fun front comma => absurd ?_ plain⟩
  exact comma.subset (List.mem_append_right _ (List.mem_singleton_self ','))

section

variable {front args behind : List Char}

theorem append_list (front args behind : List Char) :
    front ++ '<' :: (args ++ '>' :: behind) = front ++ ('<' :: args ++ ['>']) ++ behind := by
  simp

/-- Each comma of a list stands in its brackets. -/
theorem pos_of_comma_in_list (isNested : IsNested args) {before : List Char}
    (comma : before ++ [','] <+: '<' :: args ++ ['>']) : 0 < depthOf nesting before := by
  rcases prefix_concat_append_cases comma with inside | ⟨added, -, last⟩
  · cases before with
    | nil => simp at inside
    | cons c before =>
        obtain ⟨rfl, within⟩ := List.cons_prefix_cons.mp inside
        have deeper := isNested.opened ((List.prefix_append before [',']).trans within)
        rw [depthOf_cons]
        have opens : nesting '<' = 1 := rfl
        omega
  · have member := last.subset (List.mem_append_right _ (List.mem_singleton_self ','))
    simp at member

theorem isEnclosed_insert (isNested : IsNested args) :
    IsEnclosed (front ++ '<' :: (args ++ '>' :: behind)) ↔ IsEnclosed (front ++ behind) := by
  have list := isNested.list
  rw [append_list]
  constructor
  · intro whole
    refine ⟨⟨(isBalanced_insert list.angles).mp whole.angles,
      (isBalanced_insert list.parens).mp whole.parens⟩, fun before comma => ?_⟩
    rcases prefix_concat_append_cases comma with inside | ⟨added, rfl, later⟩
    · refine whole.commas before (inside.trans ?_)
      exact (List.prefix_append front _).trans (List.prefix_append _ behind)
    · have deep := whole.commas (front ++ ('<' :: args ++ ['>']) ++ added) (by
        rw [List.append_assoc]
        exact (List.prefix_append_right_inj _).mpr later)
      simpa only [depthOf_append, list.closed, Int.add_zero] using deep
  · intro without
    refine ⟨⟨(isBalanced_insert list.angles).mpr without.angles,
      (isBalanced_insert list.parens).mpr without.parens⟩, fun before comma => ?_⟩
    rcases prefix_concat_append_cases comma with inside | ⟨added, rfl, later⟩
    · rcases prefix_concat_append_cases inside with here | ⟨added, rfl, within⟩
      · exact without.commas before (here.trans (List.prefix_append front behind))
      · have level := without.opened (List.prefix_append front behind)
        have deep := pos_of_comma_in_list isNested within
        rw [depthOf_append]
        omega
    · have deep := without.commas (front ++ added) (by
        rw [List.append_assoc]
        exact (List.prefix_append_right_inj _).mpr later)
      simpa only [depthOf_append, list.closed, Int.add_zero] using deep

/-- What stands in a list does not show in the ends of the text. -/
theorem trim_list_eq_self_iff :
    trim (front ++ '<' :: (args ++ '>' :: behind)) = front ++ '<' :: (args ++ '>' :: behind) ↔
      (∀ c ∈ front.head?, isBlank c = false) ∧ ∀ c ∈ behind.getLast?, isBlank c = false := by
  have opening : isBlank '<' = false := by decide
  have closing : isBlank '>' = false := by decide
  rw [trim_eq_self_iff]
  refine and_congr ?_ ?_
  · cases front <;> simp [opening]
  · rw [append_list, List.getLast?_append, List.getLast?_append, List.getLast?_concat]
    cases behind.getLast? <;> simp [closing]

/-- A list in an argument can be exchanged for another one. -/
theorem IsArgument.exchange (argument : IsArgument (front ++ '<' :: (args ++ '>' :: behind)))
    (isNested : IsNested args) {other : List Char} (otherNested : IsNested other) :
    IsArgument (front ++ '<' :: (other ++ '>' :: behind)) := by
  obtain ⟨-, trimmed, enclosed⟩ := isArgument_iff_isEnclosed.mp argument
  refine isArgument_iff_isEnclosed.mpr ⟨by simp, ?_, ?_⟩
  · exact trim_list_eq_self_iff.mpr (trim_list_eq_self_iff.mp trimmed)
  · exact (isEnclosed_insert otherNested).mpr ((isEnclosed_insert isNested).mp enclosed)

/-- A name can be given a list of arguments. -/
theorem IsArgument.append_list {name : List Char} (argument : IsArgument name)
    (isNested : IsNested args) : IsArgument (name ++ '<' :: (args ++ ['>'])) := by
  refine isArgument_iff_isEnclosed.mpr ⟨by simp, ?_, ?_⟩
  · exact trim_list_eq_self_iff.mpr ⟨(trim_eq_self_iff.mp argument.trimmed).1, by simp⟩
  · refine (isEnclosed_insert isNested).mpr ?_
    rw [List.append_nil]
    exact argument.isEnclosed

end

/-! ## Lists that are read -/

theorem angleNesting_of_isBlank {c : Char} (blank : isBlank c = true) :
    angleNesting c = 0 ∧ parenNesting c = 0 := by
  have shown : ∀ d ∈ ['<', '>', '(', ')'], isBlank d = false :=
    List.all_iff_forall_prop.mp (by decide)
  have other : ∀ d ∈ ['<', '>', '(', ')'], c ≠ d := by
    rintro d member rfl
    exact absurd (shown c member) (by simp [blank])
  simp [angleNesting, parenNesting, other]

theorem IsNested.of_trim {cs : List Char} (isNested : IsNested (trim cs)) : IsNested cs := by
  obtain ⟨⟨front, back, parts, blankFront, blankBack⟩, -, -⟩ := isTrimOf_trim cs
  rw [parts]
  refine (IsNested.append (.of_neutral fun c member => ?_) isNested).append
    (.of_neutral fun c member => ?_)
  · exact angleNesting_of_isBlank (blankFront c member)
  · exact angleNesting_of_isBlank (blankBack c member)

/-- If brackets are closed in each argument that is read from a list, then they are in the list. -/
theorem IsNested.of_templateArgs {cs : List Char}
    (arguments : ∀ arg ∈ templateArgs cs, IsNested arg) : IsNested cs := by
  rw [← (intercalate_argumentPieces 0 cs).2]
  refine .intercalate (List.all_iff_forall_prop.mp (by decide)) fun piece member => .of_trim ?_
  by_cases blank : trim piece = []
  · rw [blank]
    exact .of_neutral nofun
  · refine arguments _ (List.mem_filter.mpr ⟨List.mem_map_of_mem member, ?_⟩)
    simpa using blank

theorem isInfix_intercalate (separator : List Char) {piece : List Char}
    {pieces : List (List Char)} (member : piece ∈ pieces) :
    piece <:+: separator.intercalate pieces := by
  induction pieces with
  | nil => cases member
  | cons first others ih =>
      cases others with
      | nil =>
          cases List.mem_singleton.mp member
          rw [List.intercalate_singleton]
      | cons second others =>
          rw [List.intercalate_cons_cons]
          rcases List.mem_cons.mp member with rfl | behind
          · rw [List.append_assoc]
            exact (List.prefix_append _ _).isInfix
          · exact (ih behind).trans (List.suffix_append _ _).isInfix

theorem mem_intercalate {separator : List Char} {pieces : List (List Char)} {c : Char}
    (member : c ∈ separator.intercalate pieces) : c ∈ separator ∨ ∃ piece ∈ pieces, c ∈ piece := by
  induction pieces with
  | nil => cases member
  | cons first others ih =>
      cases others with
      | nil =>
          rw [List.intercalate_singleton] at member
          exact .inr ⟨first, List.mem_cons_self, member⟩
      | cons second others =>
          rw [List.intercalate_cons_cons, List.append_assoc, List.mem_append,
            List.mem_append] at member
          rcases member with here | between | behind
          · exact .inr ⟨first, List.mem_cons_self, here⟩
          · exact .inl between
          · refine (ih behind).imp_right ?_
            rintro ⟨piece, isPiece, inside⟩
            exact ⟨piece, List.mem_cons_of_mem _ isPiece, inside⟩

theorem length_le_of_mem_templateArgs {arg cs : List Char} (member : arg ∈ templateArgs cs) :
    arg.length ≤ cs.length := by
  obtain ⟨piece, isPiece, rfl⟩ := List.mem_map.mp (List.mem_filter.mp member).1
  obtain ⟨⟨front, back, parts, -, -⟩, -, -⟩ := isTrimOf_trim piece
  have trimmed := congrArg List.length parts
  have within := (isInfix_intercalate [','] isPiece).length_le
  rw [(intercalate_argumentPieces 0 cs).2] at within
  rw [List.length_append, List.length_append] at trimmed
  omega

theorem isBalanced_of_splitAtClose {depth : Nat} {cs inner rest : List Char}
    (split : splitAtClose depth cs = some (inner, rest)) :
    (∀ front, front <+: inner → 0 ≤ depth + depthOf angleNesting front) ∧
      depth + depthOf angleNesting inner = 0 := by
  induction cs generalizing depth inner with
  | nil => cases split
  | cons c cs ih =>
      obtain ⟨-, rfl, rfl, -⟩ | ⟨level, before, moved, found, rfl⟩ :=
        splitAtClose_cons_eq_some split
      · simp
      · obtain ⟨opened, closed⟩ := ih found
        constructor
        · intro front isFront
          rcases List.prefix_cons_iff.mp isFront with rfl | ⟨later, rfl, behind⟩
          · simp
          · have inside := opened later behind
            rw [depthOf_cons]
            omega
        · rw [depthOf_cons]
          omega

/-- What a split at the first list finds: nothing opens before the list, and brackets are closed in
it. -/
theorem splitTemplate_eq_some_iff {cs base args rest : List Char} :
    splitTemplate cs = some (base, args, rest) ↔
      cs = base ++ '<' :: (args ++ '>' :: rest) ∧ '<' ∉ base ∧ IsBalanced angleNesting args := by
  constructor
  · intro split
    have whole := splitTemplate_eq_some split
    rw [splitTemplate] at split
    cases behind : cs.dropWhile (· != '<') with
    | nil => simp [behind] at split
    | cons c inside =>
        rw [behind] at split
        obtain ⟨⟨inner, after⟩, found, same⟩ := Option.map_eq_some_iff.mp split
        cases same
        obtain ⟨opened, closed⟩ := isBalanced_of_splitAtClose found
        refine ⟨whole, fun member => ?_, ⟨fun front isFront => ?_, ?_⟩⟩
        · have plain := List.mem_takeWhile_imp member
          simp at plain
        · simpa using opened front isFront
        · simpa using closed
  · rintro ⟨rfl, plain, balanced⟩
    exact splitTemplate_append plain balanced rest

end Chars

namespace Text

theorem splitTemplate_eq_some_iff {s base args rest : String} :
    splitTemplate s = some (base, args, rest) ↔
      s = base ++ "<" ++ args ++ ">" ++ rest ∧ '<' ∉ base.toList ∧
        Chars.IsBalanced Chars.angleNesting args.toList := by
  have parts : (base ++ "<" ++ args ++ ">" ++ rest).toList =
      base.toList ++ '<' :: (args.toList ++ '>' :: rest.toList) := by
    simp
  rw [← String.toList_inj, parts, ← Chars.splitTemplate_eq_some_iff, splitTemplate]
  constructor
  · intro found
    obtain ⟨⟨front, inside, behind⟩, split, same⟩ := Option.map_eq_some_iff.mp found
    cases same
    simpa using split
  · intro split
    rw [split]
    simp

theorem splitTemplate_append {base args : String} (plain : '<' ∉ base.toList)
    (balanced : Chars.IsBalanced Chars.angleNesting args.toList) (rest : String) :
    splitTemplate (base ++ "<" ++ args ++ ">" ++ rest) = some (base, args, rest) :=
  splitTemplate_eq_some_iff.mpr ⟨rfl, plain, balanced⟩

theorem isNested_joinArgs {args : List String} (arguments : ∀ arg ∈ args, IsArgument arg) :
    Chars.IsNested (joinArgs args).toList := by
  rw [toList_joinArgs]
  refine .intercalate (List.all_iff_forall_prop.mp (by decide)) fun cs member => ?_
  obtain ⟨arg, found, rfl⟩ := List.mem_map.mp member
  exact (Chars.IsArgument.isEnclosed (arguments arg found)).toIsNested

end Text

end Bindery
