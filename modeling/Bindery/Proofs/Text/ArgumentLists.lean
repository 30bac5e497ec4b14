import Bindery.Proofs.Text.Brackets

/-!
# Lists of arguments

The arguments of a template are printed with commas between them and split at the commas outside
brackets.  One counter serves both kinds of brackets, so that `<` and `>` in parentheses are counted
even where they are operators: then the arguments are found again exactly if the operators make no
comma inside an argument seem to stand outside brackets, and none between two arguments inside.
-/

set_option autoImplicit false

namespace Bindery

namespace Chars

/-! ## Counting commas -/

theorem count_trim {c : Char} (shown : isBlank c = false) (cs : List Char) :
    (trim cs).count c = cs.count c := by
  obtain ⟨⟨front, back, parts, blankFront, blankBack⟩, -, -⟩ := isTrimOf_trim cs
  have outside : ∀ {blanks : List Char}, IsBlankText blanks → blanks.count c = 0 := by
    intro blanks blank
    refine List.count_eq_zero.mpr fun member => ?_
    simpa [shown] using blank c member
  conv => rhs; rw [parts]
  rw [List.count_append, List.count_append, outside blankFront, outside blankBack, Nat.zero_add,
    Nat.add_zero]

/-- The commas of some arguments, and one more for each argument. -/
def commaWeight : List (List Char) → Nat
  | [] => 0
  | cs :: others => cs.count ',' + 1 + commaWeight others

theorem commaWeight_intercalate (separator : List Char) (single : separator.count ',' = 1)
    {args : List (List Char)} (some : args ≠ []) :
    commaWeight args = (separator.intercalate args).count ',' + 1 := by
  induction args with
  | nil => exact absurd rfl some
  | cons first others ih =>
      cases others with
      | nil => simp [commaWeight]
      | cons second others =>
          rw [commaWeight, ih (List.cons_ne_nil second others), List.intercalate_cons_cons,
            List.count_append, List.count_append, single]
          omega

theorem commaWeight_templateArgs_le (cs : List Char) :
    commaWeight (templateArgs cs) ≤ cs.count ',' + 1 := by
  have kept : ∀ pieces : List (List Char),
      commaWeight ((pieces.map trim).filter fun arg => !arg.isEmpty) ≤ commaWeight pieces := by
    intro pieces
    induction pieces with
    | nil => exact Nat.le_refl 0
    | cons piece pieces ih =>
        have same := count_trim (c := ',') (by decide) piece
        rw [List.map_cons, List.filter_cons]
        split
        · simp only [commaWeight]
          omega
        · simp only [commaWeight]
          omega
  obtain ⟨some, joined⟩ := intercalate_argumentPieces 0 cs
  have whole := commaWeight_intercalate [','] rfl some
  rw [joined] at whole
  rw [← whole]
  exact kept _

/-! ## The first argument -/

/-- A text is cut in one way only at a character of a kind with a given number of them before it. -/
theorem eq_of_append_cons {c : Char} {left others right rest : List Char}
    (same : left ++ c :: right = others ++ c :: rest) (count : left.count c = others.count c) :
    left = others ∧ right = rest := by
  have none : ∀ {front behind more : List Char}, behind = front ++ more →
      behind.count c = front.count c → c ∉ more := by
    rintro front _ more rfl level
    rw [List.count_append] at level
    exact List.count_eq_zero.mp (by omega)
  rcases List.append_eq_append_iff.mp same with ⟨more, longer, cut⟩ | ⟨more, longer, cut⟩
  all_goals
    cases more with
    | nil => simp_all
    | cons d more =>
        obtain ⟨rfl, -⟩ := List.cons_eq_cons.mp cut
        exact absurd List.mem_cons_self (none longer (by omega))

/-- A text has no comma outside brackets, or a first one. -/
theorem exists_first_comma (cs : List Char) :
    HasInnerCommas cs ∨ ∃ piece rest, cs = piece ++ ',' :: rest ∧ HasInnerCommas piece ∧
      depthOf nesting piece = 0 := by
  induction cs using List.reverseRecOn with
  | nil => exact .inl fun front comma => absurd comma (by simp)
  | append_singleton cs c ih =>
      rcases ih with inner | ⟨piece, rest, rfl, inner, level⟩
      · by_cases comma : c = ',' ∧ depthOf nesting cs = 0
        · obtain ⟨rfl, level⟩ := comma
          exact .inr ⟨cs, [], rfl, inner, level⟩
        · refine .inl fun front isFront => ?_
          rcases prefix_concat_append_cases isFront with inside | ⟨added, rfl, last⟩
          · exact inner front inside
          · intro level
            cases added with
            | nil =>
                rw [List.append_nil] at level
                exact comma ⟨(List.cons_prefix_cons.mp last).1.symm, level⟩
            | cons d added =>
                have size := last.length_le
                simp at size
      · exact .inr ⟨piece, rest ++ [c], by simp, inner, level⟩

/-- How the first of some arguments is read, if no comma is lost. -/
theorem first_of_templateArgs {cs first : List Char} {others : List (List Char)}
    (read : templateArgs cs = first :: others)
    (weight : commaWeight (first :: others) = cs.count ',' + 1) :
    (HasInnerCommas cs ∧ others = []) ∨
      ∃ piece rest, cs = piece ++ ',' :: rest ∧ HasInnerCommas piece ∧
        depthOf nesting piece = 0 ∧ trim piece = first ∧ templateArgs rest = others := by
  rcases exists_first_comma cs with inner | ⟨piece, rest, rfl, inner, level⟩
  · left
    refine ⟨inner, ?_⟩
    have few := List.length_filter_le (fun arg => !arg.isEmpty) ((argumentPieces 0 cs).map trim)
    rw [← templateArgs, read, inner.argumentPieces_eq] at few
    simpa using few
  · right
    refine ⟨piece, rest, rfl, inner, level, ?_⟩
    rw [inner.templateArgs_cons level] at read
    by_cases blank : trim piece = []
    · -- A blank piece would be left out, and its comma with it.
      rw [if_pos blank] at read
      have few := commaWeight_templateArgs_le rest
      rw [read, weight, List.count_append, List.count_cons_self] at few
      omega
    · rw [if_neg blank] at read
      exact List.cons_eq_cons.mp read

/-- Trimmed arguments are read back exactly if brackets are closed at each comma between them, and
at no comma in one of them. -/
theorem templateArgs_intercalate_iff {args : List (List Char)}
    (shown : ∀ cs ∈ args, cs ≠ [] ∧ trim cs = cs) :
    templateArgs ([',', ' '].intercalate args) = args ↔
      (∀ cs ∈ args.dropLast, depthOf nesting cs = 0) ∧ ∀ cs ∈ args, HasInnerCommas cs := by
  refine ⟨fun read => ?_, fun ⟨closed, inner⟩ =>
    templateArgs_intercalate_of_inner shown closed inner⟩
  induction args with
  | nil => exact ⟨nofun, nofun⟩
  | cons first others ih =>
      have weight := commaWeight_intercalate [',', ' '] rfl (List.cons_ne_nil first others)
      have same := fun piece => count_trim (c := ',') (by decide) piece
      cases others with
      | nil =>
          rw [List.intercalate_singleton] at read weight
          rcases first_of_templateArgs read weight with
            ⟨inner, -⟩ | ⟨piece, rest, cut, -, -, own, -⟩
          · exact ⟨nofun, List.forall_mem_singleton.mpr inner⟩
          · have more := congrArg (List.count ',') cut
            rw [List.count_append, List.count_cons_self, ← own, same] at more
            omega
      | cons second others =>
          rcases first_of_templateArgs read weight with
            ⟨-, none⟩ | ⟨piece, rest, cut, inner, level, own, later⟩
          · cases none
          · rw [intercalate_comma_cons] at cut
            have count := same piece
            rw [own] at count
            obtain ⟨rfl, rfl⟩ := eq_of_append_cons cut count
            rw [templateArgs_space_cons] at later
            obtain ⟨closedLater, innerLater⟩ := ih (List.forall_mem_cons.mp shown).2 later
            rw [List.dropLast_cons_cons]
            exact ⟨List.forall_mem_cons.mpr ⟨level, closedLater⟩,
              List.forall_mem_cons.mpr ⟨inner, innerLater⟩⟩

/-! ## Operators in parentheses -/

/-- The characters outside parentheses, the parentheses themselves left out. -/
def outsideParens (depth : Int) : List Char → List Char
  | [] => []
  | c :: rest =>
      let later := outsideParens (depth + parenNesting c) rest
      if parenNesting c = 0 ∧ depth = 0 then c :: later else later

/-- The characters in parentheses. -/
def insideParens (depth : Int) : List Char → List Char
  | [] => []
  | c :: rest =>
      let later := insideParens (depth + parenNesting c) rest
      if depth = 0 then later else c :: later

/-- How many brackets are open behind a text, if `<` and `>` are operators in parentheses. -/
def openBrackets (cs : List Char) : Int :=
  depthOf parenNesting cs + depthOf angleNesting (outsideParens 0 cs)

/-- How many more `<` than `>` stand in the parentheses of a text. -/
def operatorDepth (cs : List Char) : Int :=
  depthOf angleNesting (insideParens 0 cs)

theorem angleNesting_eq_zero_of_paren {c : Char} (paren : parenNesting c ≠ 0) :
    angleNesting c = 0 := by
  have angles : parenNesting '<' = 0 ∧ parenNesting '>' = 0 := by decide
  have less : c ≠ '<' := fun same => paren (same ▸ angles.1)
  have greater : c ≠ '>' := fun same => paren (same ▸ angles.2)
  simp [angleNesting, less, greater]

theorem depthOf_angleNesting_eq (depth : Int) (cs : List Char) :
    depthOf angleNesting cs =
      depthOf angleNesting (outsideParens depth cs) +
        depthOf angleNesting (insideParens depth cs) := by
  induction cs generalizing depth with
  | nil => rfl
  | cons c cs ih =>
      have later := ih (depth + parenNesting c)
      rw [outsideParens, insideParens, depthOf_cons]
      by_cases outside : depth = 0
      · by_cases paren : parenNesting c = 0
        · rw [if_pos ⟨paren, outside⟩, if_pos outside, depthOf_cons]
          omega
        · have plain := angleNesting_eq_zero_of_paren paren
          rw [if_neg fun both => paren both.1, if_pos outside]
          omega
      · rw [if_neg fun both => outside both.2, if_neg outside, depthOf_cons]
        omega

theorem depthOf_nesting_eq_openBrackets (cs : List Char) :
    depthOf nesting cs = openBrackets cs + operatorDepth cs := by
  rw [depthOf_nesting, depthOf_angleNesting_eq 0 cs, openBrackets, operatorDepth]
  omega

/-- A text that stands for one template argument, with operators: neither empty nor with white space
around it, parentheses balanced, angle brackets balanced outside parentheses, and each comma in
parentheses or in angle brackets. -/
structure IsExpressionArgument (cs : List Char) : Prop where
  nonempty : cs ≠ []
  trimmed : trim cs = cs
  parens : IsBalanced parenNesting cs
  angles : IsBalanced angleNesting (outsideParens 0 cs)
  commas : ∀ front, front ++ [','] <+: cs →
    0 < depthOf parenNesting front ∨ 0 < depthOf angleNesting (outsideParens 0 front)

instance (cs : List Char) : Decidable (IsExpressionArgument cs) :=
  decidable_of_iff
    (cs ≠ [] ∧ trim cs = cs ∧ IsBalanced parenNesting cs ∧
      IsBalanced angleNesting (outsideParens 0 cs) ∧ ∀ front, front ++ [','] <+: cs →
        0 < depthOf parenNesting front ∨ 0 < depthOf angleNesting (outsideParens 0 front))
    ⟨fun ⟨nonempty, trimmed, parens, angles, commas⟩ =>
        ⟨nonempty, trimmed, parens, angles, commas⟩,
      fun argument => ⟨argument.nonempty, argument.trimmed, argument.parens, argument.angles,
        argument.commas⟩⟩

/-- At no comma of a text do the operators before it make up for the brackets that are open there. -/
def KeepsCommas (cs : List Char) : Prop :=
  ∀ front, front ++ [','] <+: cs → openBrackets front + operatorDepth front ≠ 0

instance (cs : List Char) : Decidable (KeepsCommas cs) :=
  decidableForallBefore ',' cs _

theorem keepsCommas_iff {cs : List Char} : KeepsCommas cs ↔ HasInnerCommas cs := by
  simp only [KeepsCommas, HasInnerCommas, depthOf_nesting_eq_openBrackets]

theorem IsExpressionArgument.openBrackets_eq_zero {cs : List Char}
    (argument : IsExpressionArgument cs) : openBrackets cs = 0 := by
  rw [openBrackets, argument.parens.closed, argument.angles.closed]
  rfl

end Chars

namespace Text

/-! ## Templates that are printed and read -/

/-- What is printed as a template is split into its base, its list and the rest, and the list into
its arguments. -/
theorem templates_split_back {base : String} {args : List String} (plain : '<' ∉ base.toList)
    (arguments : ∀ arg ∈ args, IsArgument arg) (rest : String) :
    splitTemplate (base ++ "<" ++ joinArgs args ++ ">" ++ rest) =
        some (base, joinArgs args, rest) ∧
      templateArgs (joinArgs args) = args :=
  ⟨splitTemplate_joinArgs plain arguments rest, templateArgs_joinArgs arguments⟩

/-- Lists in lists, a function type with its commas, and a second list behind the first one. -/
theorem nested_template_splits_back :
    '<' ∉ "cv::Map".toList ∧
      (∀ arg ∈ ["std::pair<int, cv::Vec<float, 3>>", "void (int, F<(a)>)", "2"], IsArgument arg) ∧
      splitTemplate
          "cv::Map<std::pair<int, cv::Vec<float, 3>>, void (int, F<(a)>), 2>::Box<int>" =
        some ("cv::Map", "std::pair<int, cv::Vec<float, 3>>, void (int, F<(a)>), 2",
          "::Box<int>") ∧
      templateArgs "std::pair<int, cv::Vec<float, 3>>, void (int, F<(a)>), 2" =
        ["std::pair<int, cv::Vec<float, 3>>", "void (int, F<(a)>)", "2"] := by
  have arguments : ∀ arg ∈ ["std::pair<int, cv::Vec<float, 3>>", "void (int, F<(a)>)", "2"],
      IsArgument arg := by decide +kernel
  have plain : '<' ∉ "cv::Map".toList := by decide
  exact ⟨plain, arguments, templates_split_back plain arguments "::Box<int>"⟩

/-! ## Expressions in lists -/

/-- A text that stands for one template argument, with operators. -/
def IsExpressionArgument (s : String) : Prop :=
  Chars.IsExpressionArgument s.toList

instance (s : String) : Decidable (IsExpressionArgument s) :=
  inferInstanceAs (Decidable (Chars.IsExpressionArgument s.toList))

/-- Arguments with operators in parentheses are found again exactly if in each but the last as many
`<` as `>` stand in parentheses, and at no comma do the operators make up for the brackets that are
open. -/
theorem expressions_split_back_iff {args : List String}
    (arguments : ∀ arg ∈ args, IsExpressionArgument arg) :
    templateArgs (joinArgs args) = args ↔
      (∀ arg ∈ args.dropLast, Chars.operatorDepth arg.toList = 0) ∧
        ∀ arg ∈ args, Chars.KeepsCommas arg.toList := by
  have shown : ∀ cs ∈ args.map String.toList, cs ≠ [] ∧ Chars.trim cs = cs :=
    List.forall_mem_map.mpr fun arg member =>
      ⟨(arguments arg member).nonempty, (arguments arg member).trimmed⟩
  have texts : templateArgs (joinArgs args) = args ↔
      Chars.templateArgs ([',', ' '].intercalate (args.map String.toList)) =
        args.map String.toList := by
    have inj : Function.Injective (List.map String.ofList) :=
      List.map_injective_iff.mpr fun left right same => String.ofList_injective same
    rw [← inj.eq_iff, ← toList_joinArgs, ← templateArgs, List.map_map]
    simp [Function.comp_def]
  rw [texts, Chars.templateArgs_intercalate_iff shown, ← List.map_dropLast, List.forall_mem_map,
    List.forall_mem_map]
  refine and_congr ?_ ?_
  · refine forall₂_congr fun arg member => ?_
    have closed := (arguments arg (List.mem_of_mem_dropLast member)).openBrackets_eq_zero
    rw [Chars.depthOf_nesting_eq_openBrackets, closed, Int.zero_add]
  · exact forall₂_congr fun arg _ => Chars.keepsCommas_iff.symm

/-- Comparisons that keep the counter level before each comma, and a shift in the last argument. -/
theorem paired_operators_split_back :
    (∀ arg ∈ ["max(a < b, c > d)", "Box<(n > 0 && 0 < n)>", "(1 << 2)"],
        IsExpressionArgument arg) ∧
      templateArgs "max(a < b, c > d), Box<(n > 0 && 0 < n)>, (1 << 2)" =
        ["max(a < b, c > d)", "Box<(n > 0 && 0 < n)>", "(1 << 2)"] := by
  have arguments : ∀ arg ∈ ["max(a < b, c > d)", "Box<(n > 0 && 0 < n)>", "(1 << 2)"],
      IsExpressionArgument arg := by decide +kernel
  have paired : ∀ arg ∈ ["max(a < b, c > d)", "Box<(n > 0 && 0 < n)>"],
      Chars.operatorDepth arg.toList = 0 := by decide +kernel
  have kept : ∀ arg ∈ ["max(a < b, c > d)", "Box<(n > 0 && 0 < n)>", "(1 << 2)"],
      Chars.KeepsCommas arg.toList := by decide +kernel
  exact ⟨arguments, (expressions_split_back_iff arguments).mpr ⟨paired, kept⟩⟩

/-- A comparison makes the comma behind it one between arguments. -/
theorem comparison_tears_argument :
    IsExpressionArgument "max(a > b, 1)" ∧
      templateArgs (joinArgs ["max(a > b, 1)"]) = ["max(a > b", "1)"] := by
  decide +kernel

end Text

end Bindery
