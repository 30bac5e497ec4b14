import Bindery.Text.Scope
import Mathlib.Data.List.Infix

/-!
# Reading back template argument lists

A list of arguments that is printed between a name and a closing bracket is found again: the list
ends where the brackets inside it are closed, and its commas at depth zero are those between
arguments.
-/

set_option autoImplicit false

namespace Bindery

namespace Chars

/-! ## Depth of brackets -/

/-- How a character moves the depth of parentheses alone. -/
def parenNesting (c : Char) : Int :=
  if c = '(' then 1 else if c = ')' then -1 else 0

/-- How far a text moves the depth of brackets. -/
def depthOf (nested : Char → Int) : List Char → Int
  | [] => 0
  | c :: rest => nested c + depthOf nested rest

section

variable {nested : Char → Int}

@[simp]
theorem depthOf_nil : depthOf nested [] = 0 :=
  rfl

@[simp]
theorem depthOf_cons (c : Char) (cs : List Char) :
    depthOf nested (c :: cs) = nested c + depthOf nested cs :=
  rfl

@[simp]
theorem depthOf_append (left right : List Char) :
    depthOf nested (left ++ right) = depthOf nested left + depthOf nested right := by
  induction left with
  | nil => simp
  | cons c left ih =>
      rw [List.cons_append, depthOf_cons, depthOf_cons, ih]
      omega

theorem nesting_eq_add (c : Char) : nesting c = angleNesting c + parenNesting c := by
  by_cases less : c = '<'
  · subst less
    rfl
  · by_cases greater : c = '>'
    · subst greater
      rfl
    · simp [nesting, angleNesting, parenNesting, less, greater]

theorem depthOf_nesting (cs : List Char) :
    depthOf nesting cs = depthOf angleNesting cs + depthOf parenNesting cs := by
  induction cs with
  | nil => rfl
  | cons c cs ih =>
      rw [depthOf_cons, depthOf_cons, depthOf_cons, ih, nesting_eq_add]
      omega

/-- Brackets never close more than they opened, and all are closed at the end. -/
structure IsBalanced (nested : Char → Int) (cs : List Char) : Prop where
  opened : ∀ front, front <+: cs → 0 ≤ depthOf nested front
  closed : depthOf nested cs = 0

theorem isBalanced_iff {cs : List Char} :
    (∀ front ∈ cs.inits, 0 ≤ depthOf nested front) ∧ depthOf nested cs = 0 ↔
      IsBalanced nested cs := by
  simp only [List.mem_inits]
  exact ⟨fun balanced => ⟨balanced.1, balanced.2⟩, fun balanced => ⟨balanced.1, balanced.2⟩⟩

instance (cs : List Char) : Decidable (IsBalanced nested cs) :=
  decidable_of_iff _ isBalanced_iff

theorem depthOf_eq_zero_of_neutral {cs : List Char} (neutral : ∀ c ∈ cs, nested c = 0) :
    depthOf nested cs = 0 := by
  induction cs with
  | nil => rfl
  | cons c cs ih =>
      have here := neutral c List.mem_cons_self
      have behind := ih fun other member => neutral other (List.mem_cons_of_mem _ member)
      rw [depthOf_cons]
      omega

theorem isBalanced_of_neutral {cs : List Char} (neutral : ∀ c ∈ cs, nested c = 0) :
    IsBalanced nested cs := by
  constructor
  · intro front isFront
    have level := depthOf_eq_zero_of_neutral fun c member => neutral c (isFront.subset member)
    omega
  · exact depthOf_eq_zero_of_neutral neutral

theorem IsBalanced.append {left right : List Char} (first : IsBalanced nested left)
    (second : IsBalanced nested right) : IsBalanced nested (left ++ right) := by
  constructor
  · intro front isFront
    rcases List.prefix_or_prefix_of_prefix isFront (List.prefix_append left right) with
      inside | ⟨added, rfl⟩
    · exact first.opened front inside
    · rw [depthOf_append, first.closed, Int.zero_add]
      exact second.opened added ((List.prefix_append_right_inj left).mp isFront)
  · rw [depthOf_append, first.closed, second.closed]
    rfl

end

/-! ## Arguments -/

/-- A text that stands for one template argument: neither empty nor with white space around it,
both kinds of brackets balanced, and no comma outside brackets. -/
structure IsArgument (cs : List Char) : Prop where
  nonempty : cs ≠ []
  trimmed : trim cs = cs
  angles : IsBalanced angleNesting cs
  parens : IsBalanced parenNesting cs
  commas : ∀ front, front ++ [','] <+: cs → 0 < depthOf nesting front

theorem forall_before_iff {c : Char} {cs : List Char} {holds : List Char → Prop} :
    (∀ front ∈ cs.inits, front ++ [c] ∈ cs.inits → holds front) ↔
      ∀ front, front ++ [c] <+: cs → holds front := by
  simp only [List.mem_inits]
  exact ⟨fun all front before => all front ((List.prefix_append front [c]).trans before) before,
    fun all front _ => all front⟩

theorem isArgument_iff {cs : List Char} :
    cs ≠ [] ∧ trim cs = cs ∧ IsBalanced angleNesting cs ∧ IsBalanced parenNesting cs ∧
        (∀ front ∈ cs.inits, front ++ [','] ∈ cs.inits → 0 < depthOf nesting front) ↔
      IsArgument cs := by
  rw [forall_before_iff]
  exact ⟨fun ⟨nonempty, trimmed, angles, parens, commas⟩ =>
      ⟨nonempty, trimmed, angles, parens, commas⟩,
    fun ⟨nonempty, trimmed, angles, parens, commas⟩ =>
      ⟨nonempty, trimmed, angles, parens, commas⟩⟩

instance (cs : List Char) : Decidable (IsArgument cs) :=
  decidable_of_iff _ isArgument_iff

/-- What is said of all that stands before a given character of a text can be tested. -/
instance decidableForallBefore (c : Char) (cs : List Char) (holds : List Char → Prop)
    [DecidablePred holds] : Decidable (∀ front, front ++ [c] <+: cs → holds front) :=
  decidable_of_iff _ forall_before_iff

theorem IsArgument.depthOf_eq_zero {cs : List Char} (argument : IsArgument cs) :
    depthOf nesting cs = 0 := by
  rw [depthOf_nesting, argument.angles.closed, argument.parens.closed]
  rfl

theorem IsArgument.isBalanced {cs : List Char} (argument : IsArgument cs) :
    IsBalanced nesting cs := by
  constructor
  · intro front isFront
    have angles := argument.angles.opened front isFront
    have parens := argument.parens.opened front isFront
    rw [depthOf_nesting]
    omega
  · exact argument.depthOf_eq_zero

/-! ## Splitting at commas -/

theorem argumentPieces_ne_nil (depth : Int) (cs : List Char) : argumentPieces depth cs ≠ [] := by
  cases cs with
  | nil => simp [argumentPieces]
  | cons c rest =>
      rw [argumentPieces]
      split
      · simp
      · cases argumentPieces (depth + nesting c) rest <;> simp [consFirst]

theorem consFirst_eq {c : Char} {pieces : List (List Char)} (some : pieces ≠ []) :
    consFirst c pieces = pieces.modifyHead (c :: ·) := by
  cases pieces with
  | nil => exact absurd rfl some
  | cons piece pieces => rfl

/-- A text whose commas are all at another depth than zero stays in one piece. -/
theorem argumentPieces_append {depth : Int} {cs : List Char}
    (inside : ∀ front, front ++ [','] <+: cs → depth + depthOf nesting front ≠ 0)
    (rest : List Char) :
    argumentPieces depth (cs ++ rest) =
      (argumentPieces (depth + depthOf nesting cs) rest).modifyHead (cs ++ ·) := by
  induction cs generalizing depth with
  | nil =>
      rw [depthOf_nil, Int.add_zero, List.nil_append]
      cases argumentPieces depth rest <;> rfl
  | cons c cs ih =>
      have kept : ¬ (c = ',' ∧ depth = 0) := by
        rintro ⟨rfl, rfl⟩
        exact inside [] (List.prefix_append [','] cs) rfl
      have later : ∀ front, front ++ [','] <+: cs →
          depth + nesting c + depthOf nesting front ≠ 0 := by
        intro front comma
        have here := inside (c :: front) (List.prefix_cons_inj c |>.mpr comma)
        rw [depthOf_cons] at here
        omega
      rw [List.cons_append, argumentPieces, if_neg kept,
        consFirst_eq (argumentPieces_ne_nil _ _), ih later, depthOf_cons, Int.add_assoc]
      cases argumentPieces (depth + (nesting c + depthOf nesting cs)) rest <;> rfl

/-! ## Commas in brackets -/

/-- All commas of a text stand in brackets. -/
def HasInnerCommas (cs : List Char) : Prop :=
  ∀ front, front ++ [','] <+: cs → depthOf nesting front ≠ 0

theorem IsArgument.hasInnerCommas {cs : List Char} (argument : IsArgument cs) :
    HasInnerCommas cs := by
  intro front comma
  have deep := argument.commas front comma
  omega

namespace HasInnerCommas

variable {cs : List Char} (inner : HasInnerCommas cs)

include inner

theorem argumentPieces_append (rest : List Char) :
    argumentPieces 0 (cs ++ rest) =
      (argumentPieces (depthOf nesting cs) rest).modifyHead (cs ++ ·) := by
  have inside : ∀ front, front ++ [','] <+: cs → 0 + depthOf nesting front ≠ 0 := by
    intro front comma
    rw [Int.zero_add]
    exact inner front comma
  rw [Chars.argumentPieces_append inside, Int.zero_add]

theorem argumentPieces_eq : argumentPieces 0 cs = [cs] := by
  have whole := inner.argumentPieces_append []
  rwa [List.append_nil, argumentPieces, List.modifyHead_cons, List.append_nil] at whole

theorem argumentPieces_cons (level : depthOf nesting cs = 0) (rest : List Char) :
    argumentPieces 0 (cs ++ ',' :: rest) = cs :: argumentPieces 0 rest := by
  rw [inner.argumentPieces_append, level, argumentPieces, if_pos ⟨rfl, rfl⟩, List.modifyHead_cons,
    List.append_nil]

theorem templateArgs_eq (nonempty : cs ≠ []) (trimmed : trim cs = cs) : templateArgs cs = [cs] := by
  rw [templateArgs, inner.argumentPieces_eq, List.map_singleton, trimmed]
  simp [nonempty]

/-- What stands before a comma at depth zero is read as an argument, unless it is blank. -/
theorem templateArgs_cons (level : depthOf nesting cs = 0) (rest : List Char) :
    templateArgs (cs ++ ',' :: rest) =
      if trim cs = [] then templateArgs rest else trim cs :: templateArgs rest := by
  rw [templateArgs, inner.argumentPieces_cons level, List.map_cons, List.filter_cons]
  by_cases blank : trim cs = [] <;> simp [blank, templateArgs]

end HasInnerCommas

/-! ## Arguments that are read back -/

theorem trim_space_cons (cs : List Char) : trim (' ' :: cs) = trim cs := by
  have blank : isBlank ' ' = true := by decide
  simp [trim, trimStart, blank]

theorem templateArgs_space_cons (cs : List Char) : templateArgs (' ' :: cs) = templateArgs cs := by
  have pieces : (argumentPieces 0 (' ' :: cs)).map trim = (argumentPieces 0 cs).map trim := by
    rw [argumentPieces, if_neg (by decide), consFirst_eq (argumentPieces_ne_nil _ _)]
    change (List.modifyHead _ (argumentPieces 0 cs)).map trim = _
    cases argumentPieces 0 cs with
    | nil => rfl
    | cons piece pieces => rw [List.modifyHead_cons, List.map_cons, List.map_cons, trim_space_cons]
  rw [templateArgs, pieces, templateArgs]

theorem intercalate_comma_cons (first second : List Char) (others : List (List Char)) :
    [',', ' '].intercalate (first :: second :: others) =
      first ++ ',' :: ' ' :: [',', ' '].intercalate (second :: others) := by
  rw [List.intercalate_cons_cons, List.append_assoc]
  rfl

/-- Trimmed arguments whose commas stand in brackets are read back, if brackets are closed at each
comma between them. -/
theorem templateArgs_intercalate_of_inner {args : List (List Char)}
    (shown : ∀ cs ∈ args, cs ≠ [] ∧ trim cs = cs)
    (closed : ∀ cs ∈ args.dropLast, depthOf nesting cs = 0)
    (inner : ∀ cs ∈ args, HasInnerCommas cs) :
    templateArgs ([',', ' '].intercalate args) = args := by
  induction args with
  | nil => decide
  | cons first others ih =>
      obtain ⟨⟨nonempty, trimmed⟩, shownLater⟩ := List.forall_mem_cons.mp shown
      obtain ⟨innerFirst, innerLater⟩ := List.forall_mem_cons.mp inner
      cases others with
      | nil =>
          rw [List.intercalate_singleton]
          exact innerFirst.templateArgs_eq nonempty trimmed
      | cons second others =>
          rw [List.dropLast_cons_cons] at closed
          obtain ⟨level, closedLater⟩ := List.forall_mem_cons.mp closed
          rw [intercalate_comma_cons, innerFirst.templateArgs_cons level, trimmed, if_neg nonempty,
            templateArgs_space_cons, ih shownLater closedLater innerLater]

/-- Arguments that are printed with `, ` between them are read back. -/
theorem templateArgs_intercalate {args : List (List Char)}
    (arguments : ∀ cs ∈ args, IsArgument cs) :
    templateArgs ([',', ' '].intercalate args) = args := by
  apply templateArgs_intercalate_of_inner
  · exact fun cs member => ⟨(arguments cs member).nonempty, (arguments cs member).trimmed⟩
  · exact fun cs member => (arguments cs (List.mem_of_mem_dropLast member)).depthOf_eq_zero
  · exact fun cs member => (arguments cs member).hasInnerCommas

/-! ## Finding the list -/

/-- A list in which angle brackets are balanced ends at the first `>` behind it. -/
theorem splitAtClose_append {depth : Nat} {cs : List Char}
    (opened : ∀ front, front <+: cs → 0 ≤ depth + depthOf angleNesting front)
    (closed : depth + depthOf angleNesting cs = 0) (rest : List Char) :
    splitAtClose depth (cs ++ '>' :: rest) = some (cs, rest) := by
  induction cs generalizing depth with
  | nil =>
      have level : depth = 0 := by
        rw [depthOf_nil] at closed
        omega
      subst level
      rfl
  | cons c cs ih =>
      have next : ∀ level : Nat, (level : Int) = depth + angleNesting c →
          splitAtClose level (cs ++ '>' :: rest) = some (cs, rest) := by
        intro level moved
        refine ih (fun front isFront => ?_) ?_
        · have here := opened (c :: front) (List.prefix_cons_inj c |>.mpr isFront)
          rw [depthOf_cons] at here
          omega
        · rw [depthOf_cons] at closed
          omega
      -- The depth is a natural number here: a bracket that closed too much would end the list.
      rw [List.cons_append, splitAtClose.eq_def]
      by_cases closes : c = '>'
      · subst closes
        have here := opened ['>'] (List.prefix_append ['>'] cs)
        cases depth with
        | zero => simp [depthOf, angleNesting] at here
        | succ level =>
            have down : angleNesting '>' = -1 := rfl
            have inner := next level (by omega)
            simp [inner]
      · by_cases opens : c = '<'
        · subst opens
          have inner := next (depth + 1) (by simp [angleNesting])
          simp [inner]
        · have inner := next depth (by simp [angleNesting, closes, opens])
          simp [closes, opens, inner]

theorem ne_of_plain {base : List Char} (plain : '<' ∉ base) : ∀ c ∈ base, (c != '<') = true := by
  intro c member
  rw [bne_iff_ne]
  rintro rfl
  exact plain member

theorem takeWhile_append_angle {base : List Char} (plain : '<' ∉ base) (rest : List Char) :
    (base ++ '<' :: rest).takeWhile (· != '<') = base := by
  rw [List.takeWhile_append_of_pos (ne_of_plain plain), List.takeWhile_cons_of_neg (by decide),
    List.append_nil]

theorem dropWhile_append_angle {base : List Char} (plain : '<' ∉ base) (rest : List Char) :
    (base ++ '<' :: rest).dropWhile (· != '<') = '<' :: rest := by
  rw [List.dropWhile_append_of_pos (ne_of_plain plain), List.dropWhile_cons_of_neg (by decide)]

theorem splitTemplate_append {base args : List Char} (plain : '<' ∉ base)
    (balanced : IsBalanced angleNesting args) (rest : List Char) :
    splitTemplate (base ++ '<' :: (args ++ '>' :: rest)) = some (base, args, rest) := by
  have list : splitAtClose 0 (args ++ '>' :: rest) = some (args, rest) := by
    refine splitAtClose_append (fun front isFront => ?_) ?_ rest
    · simpa using balanced.opened front isFront
    · simpa using balanced.closed
  rw [splitTemplate, dropWhile_append_angle plain, takeWhile_append_angle plain]
  simp [list]

theorem isBalanced_intercalate {nested : Char → Int} {separator : List Char}
    {args : List (List Char)} (neutral : ∀ c ∈ separator, nested c = 0)
    (arguments : ∀ cs ∈ args, IsBalanced nested cs) :
    IsBalanced nested (separator.intercalate args) := by
  induction args with
  | nil => exact isBalanced_of_neutral nofun
  | cons first others ih =>
      have here := arguments first List.mem_cons_self
      have behind := ih fun cs member => arguments cs (List.mem_cons_of_mem _ member)
      cases others with
      | nil => simpa using here
      | cons second others =>
          rw [List.intercalate_cons_cons]
          exact (here.append (isBalanced_of_neutral neutral)).append behind

end Chars

namespace Text

/-- A text that stands for one template argument. -/
def IsArgument (s : String) : Prop :=
  Chars.IsArgument s.toList

instance (s : String) : Decidable (IsArgument s) :=
  inferInstanceAs (Decidable (Chars.IsArgument s.toList))

theorem toList_joinArgs (args : List String) :
    (joinArgs args).toList = [',', ' '].intercalate (args.map String.toList) :=
  String.toList_intercalate

theorem templateArgs_joinArgs {args : List String} (arguments : ∀ arg ∈ args, IsArgument arg) :
    templateArgs (joinArgs args) = args := by
  rw [templateArgs, toList_joinArgs, Chars.templateArgs_intercalate]
  · rw [List.map_map]
    exact (List.map_congr_left fun arg _ => String.ofList_toList).trans (List.map_id args)
  · intro cs member
    obtain ⟨arg, found, rfl⟩ := List.mem_map.mp member
    exact arguments arg found

theorem splitTemplate_joinArgs {base : String} {args : List String} (plain : '<' ∉ base.toList)
    (arguments : ∀ arg ∈ args, IsArgument arg) (rest : String) :
    splitTemplate (base ++ "<" ++ joinArgs args ++ ">" ++ rest) =
      some (base, joinArgs args, rest) := by
  have parts : (base ++ "<" ++ joinArgs args ++ ">" ++ rest).toList =
      base.toList ++ '<' :: ((joinArgs args).toList ++ '>' :: rest.toList) := by
    simp
  have balanced : Chars.IsBalanced Chars.angleNesting (joinArgs args).toList := by
    rw [toList_joinArgs]
    refine Chars.isBalanced_intercalate (by simp [Chars.angleNesting]) fun cs member => ?_
    obtain ⟨arg, found, rfl⟩ := List.mem_map.mp member
    exact (arguments arg found).angles
  rw [splitTemplate, parts, Chars.splitTemplate_append plain balanced]
  simp

end Text

end Bindery
