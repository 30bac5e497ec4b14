import Bindery.Proofs.Text.Splicing
import Bindery.Text.Substitution

/-!
# Substitution in one pass

Names are replaced by collecting edits and applying them in order.  The edits for the identifiers
of a text never meet, so that all of them are carried out, and what comes out is the text read once
from left to right with each identifier written in its new form.
-/

set_option autoImplicit false

namespace Bindery

/-! ## Edits that do not meet -/

namespace Edits

theorem pushAll_eq_append {edits : Edits} {later : List Edit}
    (ordered : (edits.toList ++ later).Pairwise fun a b => a.stop ≤ b.start) :
    (edits.pushAll later).1 = ⟨edits.toList ++ later⟩ := by
  have apart : AreApart (edits.toList ++ later) := by
    refine ordered.imp fun {a b} before => ?_
    simp only [Edit.overlaps, Bool.and_eq_false_iff, decide_eq_false_iff_not]
    omega
  rw [pushAll_eq_of_areApart apart]

/-- Edits in the order of their places are applied in the order in which they came. -/
theorem apply_pushAll_eq {later : List Edit} (source : List Char)
    (ordered : later.Pairwise fun a b => a.stop ≤ b.start)
    (forward : ∀ edit ∈ later, edit.start ≤ edit.stop) :
    (empty.pushAll later).1.apply source = (applyFrom source 0 later).getD source := by
  have starts : later.Pairwise fun a b => a.start ≤ b.start := by
    refine ordered.imp_of_mem ?_
    intro a b first _ before
    exact Nat.le_trans (forward a first) before
  have accepted : (empty.pushAll later).1.toList = later := by
    rw [pushAll_eq_append (by simpa [empty] using ordered)]
    rfl
  exact apply_of_pairwise source accepted starts

end Edits

namespace Chars

/-! ## Places of runs -/

theorem runsFrom_ge {pos place : Nat} {cs run : List Char}
    (member : (place, run) ∈ runsFrom pos cs) : pos ≤ place := by
  fun_induction runsFrom pos cs with
  | case1 => cases member
  | case2 pos c rest ident first ih =>
      rcases List.mem_cons.mp member with same | later
      · exact Nat.le_of_eq (congrArg Prod.fst same).symm
      · exact Nat.le_trans (Nat.le_add_right pos _) (ih later)
  | case3 pos c rest other ih => exact Nat.le_trans (Nat.le_succ pos) (ih member)

theorem runsFrom_pairwise (pos : Nat) (cs : List Char) :
    (runsFrom pos cs).Pairwise fun a b => a.1 + a.2.length ≤ b.1 := by
  fun_induction runsFrom pos cs with
  | case1 => exact .nil
  | case2 pos c rest ident first ih => exact .cons (fun _ later => runsFrom_ge later) ih
  | case3 pos c rest other ih => exact ih

/-! ## Rewriting runs -/

/-- The new text for a run of identifier characters, if there is one, by what stands before and
behind the run. -/
abbrev RunRule :=
  List Char → List Char → List Char → Option (List Char)

/-- A text that stands behind `front`, each maximal run of identifier characters in the form that
the rule gives it. -/
def rewriteRuns (rule : RunRule) (front : List Char) : List Char → List Char
  | [] => []
  | c :: rest =>
      if isIdentChar c then
        let run := c :: rest.takeWhile isIdentChar
        let behind := rest.dropWhile isIdentChar
        (rule front run behind).getD run ++ rewriteRuns rule (front ++ run) behind
      else
        c :: rewriteRuns rule (front ++ [c]) rest
termination_by cs => cs.length
decreasing_by
  · have := (List.dropWhile_suffix (l := rest) isIdentChar).length_le
    simp only [List.length_cons]
    omega
  · simp

namespace RunRule

variable (rule : RunRule)

/-- The edit for a run of identifier characters. -/
def edit? (cs : List Char) (entry : Nat × List Char) : Option Edit :=
  (rule (cs.take entry.1) entry.2 (cs.drop (entry.1 + entry.2.length))).map fun text =>
    ⟨entry.1, entry.1 + entry.2.length, text⟩

def edits (cs : List Char) : List Edit :=
  (runsFrom 0 cs).filterMap (rule.edit? cs)

theorem edits_pairwise (cs : List Char) :
    (rule.edits cs).Pairwise fun a b => a.stop ≤ b.start := by
  rw [edits, List.pairwise_filterMap]
  refine (runsFrom_pairwise 0 cs).imp ?_
  intro a b before first isFirst second isSecond
  simp only [edit?, Option.map_eq_some_iff] at isFirst isSecond
  obtain ⟨_, _, rfl⟩ := isFirst
  obtain ⟨_, _, rfl⟩ := isSecond
  exact before

theorem start_le_stop_of_mem_edits {cs : List Char} {edit : Edit}
    (member : edit ∈ rule.edits cs) : edit.start ≤ edit.stop := by
  rw [edits, List.mem_filterMap] at member
  obtain ⟨entry, _, isEdit⟩ := member
  simp only [edit?, Option.map_eq_some_iff] at isEdit
  obtain ⟨_, _, rfl⟩ := isEdit
  exact Nat.le_add_right _ _

/-- The edits for what stands behind `front` copy the rest of `front` and then read once. -/
theorem applyFrom_runs (front cs : List Char) :
    ∀ cursor ≤ front.length,
      Edits.applyFrom (front ++ cs) cursor
          ((runsFrom front.length cs).filterMap (rule.edit? (front ++ cs))) =
        some (front.drop cursor ++ rewriteRuns rule front cs) := by
  fun_induction rewriteRuns rule front cs with
  | case1 front =>
      intro cursor within
      simp [runsFrom, Edits.applyFrom, within]
  | case2 front c rest ident run behind ih =>
      intro cursor within
      have cut : front ++ c :: rest = front ++ run ++ behind := by
        simp [run, behind, List.takeWhile_append_dropWhile]
      have runs : runsFrom front.length (c :: rest) =
          (front.length, run) :: runsFrom (front ++ run).length behind := by
        rw [runsFrom, if_pos ident, List.length_append]
      have here : rule.edit? (front ++ c :: rest) (front.length, run) =
          (rule front run behind).map fun text =>
            ⟨front.length, (front ++ run).length, text⟩ := by
        rw [cut, edit?, ← List.length_append, List.drop_left, List.append_assoc, List.take_left]
      rw [runs, List.filterMap_cons, here, cut]
      cases rule front run behind with
      | none =>
          have later := ih cursor (by
            rw [List.length_append]
            exact Nat.le_add_right_of_le within)
          simpa [List.drop_append_of_le_length within] using later
      | some text =>
          -- The edit takes the cursor behind the run, so that nothing of it is copied.
          have later := ih (front ++ run).length (Nat.le_refl _)
          have inside : front.length ≤ (front ++ run ++ behind).length := by
            rw [List.append_assoc, List.length_append]
            exact Nat.le_add_right _ _
          have copied : (front ++ run ++ behind).take front.length = front := by
            rw [List.append_assoc, List.take_left]
          rw [List.drop_length, List.nil_append] at later
          simp only [Option.map_some]
          rw [Edits.applyFrom, if_pos ⟨within, inside⟩, later, copied, Option.map_some,
            Option.getD_some, List.append_assoc]
  | case3 front c rest other ih =>
      intro cursor within
      have runs : runsFrom front.length (c :: rest) = runsFrom (front ++ [c]).length rest := by
        rw [runsFrom, if_neg other, List.length_append, List.length_singleton]
      have later := ih cursor (by
        rw [List.length_append]
        exact Nat.le_add_right_of_le within)
      rw [runs]
      simpa [List.drop_append_of_le_length within] using later

/-- Edits for the runs of a text that are collected and applied rewrite it in one reading. -/
theorem apply_edits (cs : List Char) :
    (Edits.empty.pushAll (rule.edits cs)).1.apply cs = rewriteRuns rule [] cs := by
  have applied := rule.applyFrom_runs [] cs 0 (Nat.le_refl 0)
  rw [List.nil_append, List.length_nil, ← edits] at applied
  rw [Edits.apply_pushAll_eq cs (rule.edits_pairwise cs)
    fun _ => rule.start_le_stop_of_mem_edits, applied]
  rfl

end RunRule

/-! ## Replacing words -/

/-- What is written for a run of identifier characters that stands behind `front`: what `meaning`
gives for it, unless it starts with a digit or follows `::`, white space aside. -/
def replacement? (meaning : List Char → Option (List Char)) (front run : List Char) :
    Option (List Char) :=
  if startsWithDigit run || endsWith [':', ':'] (trimEnd front) then none else meaning run

/-- A text that stands behind `front`, each maximal run of identifier characters written in its new
form. -/
def replaceWords (meaning : List Char → Option (List Char)) (front : List Char) :
    List Char → List Char
  | [] => []
  | c :: rest =>
      if isIdentChar c then
        let run := c :: rest.takeWhile isIdentChar
        (replacement? meaning front run).getD run ++
          replaceWords meaning (front ++ run) (rest.dropWhile isIdentChar)
      else
        c :: replaceWords meaning (front ++ [c]) rest
termination_by cs => cs.length
decreasing_by
  · have := (List.dropWhile_suffix (l := rest) isIdentChar).length_le
    simp only [List.length_cons]
    omega
  · simp

variable (meaning : List Char → Option (List Char))

def wordRule : RunRule :=
  fun front run _ => replacement? meaning front run

theorem rewriteRuns_wordRule (front cs : List Char) :
    rewriteRuns (wordRule meaning) front cs = replaceWords meaning front cs := by
  fun_induction replaceWords meaning front cs with
  | case1 front => rw [rewriteRuns]
  | case2 front c rest ident run ih =>
      rw [rewriteRuns, if_pos ident]
      exact congrArg (_ ++ ·) ih
  | case3 front c rest other ih => rw [rewriteRuns, if_neg other, ih]

theorem identifierEdits_eq (cs : List Char) :
    identifierEdits meaning cs = (wordRule meaning).edits cs := by
  rw [identifierEdits, identifiers, List.filterMap_filter, RunRule.edits]
  refine congrArg (fun edit => (runsFrom 0 cs).filterMap edit) (funext ?_)
  rintro ⟨place, word⟩
  by_cases digit : startsWithDigit word = true <;>
    by_cases follows : precededByScope cs place = true <;>
    simp_all [RunRule.edit?, wordRule, replacement?, precededByScope]

/-- Replacing the identifiers of a text reads it once. -/
theorem replaceIdentifiers_eq_replaceWords (cs : List Char) :
    replaceIdentifiers meaning cs = replaceWords meaning [] cs := by
  rw [replaceIdentifiers, identifierEdits_eq, RunRule.apply_edits, rewriteRuns_wordRule]

theorem argumentFor_eq_lookup (params args : List (List Char)) (word : List Char) :
    argumentFor params args word = (params.zip args).lookup word := by
  induction params generalizing args with
  | nil => rfl
  | cons param params ih =>
      cases args with
      | nil => simp [argumentFor]
      | cons arg args =>
          by_cases same : word = param
          · subst same
            simp [argumentFor, List.findIdx?_cons]
          · have other : (param == word) = false := beq_eq_false_iff_ne.mpr (Ne.symm same)
            have rest := ih args
            simp only [argumentFor] at rest
            rw [List.zip_cons_cons, List.lookup_cons, beq_eq_false_iff_ne.mpr same, ← rest]
            simp only [argumentFor, List.findIdx?_cons, other, Bool.false_eq_true, if_false,
              Option.bind_map]
            rfl

end Chars

namespace Text

/-- A text with each maximal run of identifier characters written in its new form, where it neither
starts with a digit nor follows `::`. -/
def replaceWords (meaning : String → Option String) (s : String) : String :=
  String.ofList <| Chars.replaceWords
    (fun word => (meaning (String.ofList word)).map String.toList) [] s.toList

theorem lookup_zip_map_toList (params args : List String) (word : List Char) :
    ((params.map String.toList).zip (args.map String.toList)).lookup word =
      ((params.zip args).lookup (String.ofList word)).map String.toList := by
  induction params generalizing args with
  | nil => rfl
  | cons param params ih =>
      cases args with
      | nil => rfl
      | cons arg args =>
          by_cases same : String.ofList word = param
          · subst same
            simp
          · have other : word ≠ param.toList := by
              intro equal
              exact same (by rw [equal, String.ofList_toList])
            simp only [List.map_cons, List.zip_cons_cons, List.lookup_cons,
              beq_eq_false_iff_ne.mpr same, beq_eq_false_iff_ne.mpr other]
            exact ih args

/-- Parameters are replaced by arguments all at once: the text is read once, and what is written
for a parameter is not read again. -/
theorem substitute_eq_replaceWords (s : String) (params args : List String) :
    substitute s params args = replaceWords (fun word => (params.zip args).lookup word) s := by
  rw [substitute, replaceWords, Chars.substitute, Chars.replaceIdentifiers_eq_replaceWords]
  congr 2
  funext word
  rw [Chars.argumentFor_eq_lookup, lookup_zip_map_toList]

end Text

end Bindery
