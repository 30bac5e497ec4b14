import Bindery.Proofs.Text.FreeNames

/-!
# Names of rewritten texts

A rule writes new text for some of the runs of identifier characters of a text.  If it replaces free
names by names, then the free names of the result are told from the text before; and if each name
that it writes is longer than the one before, then only a text without such names stays as it is.
-/

set_option autoImplicit false

namespace Bindery

namespace Chars

/-- The free names of a run in the form that the rule gives it. -/
def runNames (rule : RunRule) (front run behind : List Char) : List (List Char) :=
  match rule front run behind with
  | some text => freeNames text
  | none => if isFree front run then [run] else []

/-- The free names of a text that stands behind `front` after the rule has been followed. -/
def namesAfter (rule : RunRule) (front : List Char) : List Char → List (List Char)
  | [] => []
  | c :: rest =>
      if isIdentChar c then
        let run := c :: rest.takeWhile isIdentChar
        let behind := rest.dropWhile isIdentChar
        runNames rule front run behind ++ namesAfter rule (front ++ run) behind
      else
        namesAfter rule (front ++ [c]) rest
termination_by cs => cs.length
decreasing_by
  · have := (List.dropWhile_suffix (l := rest) isIdentChar).length_le
    simp only [List.length_cons]
    omega
  · simp

/-! ## Runs -/

theorem startsApart_dropWhile (cs : List Char) : StartsApart (cs.dropWhile isIdentChar) := by
  intro c head
  have first := List.head?_dropWhile_not isIdentChar cs
  rw [Option.mem_def.mp head] at first
  simpa using first

theorem StartsApart.rewriteRuns {cs : List Char} (apart : StartsApart cs) (rule : RunRule)
    (front : List Char) : StartsApart (rewriteRuns rule front cs) := by
  cases cs with
  | nil =>
      rw [Chars.rewriteRuns]
      intro c head
      cases head
  | cons c rest =>
      have other := apart c rfl
      rw [Chars.rewriteRuns, if_neg (by simp [other])]
      intro d head
      cases head
      exact other

theorem forall_isIdentChar_run {c : Char} (ident : isIdentChar c = true) (rest : List Char) :
    ∀ d ∈ c :: rest.takeWhile isIdentChar, isIdentChar d = true := by
  intro d member
  rcases List.mem_cons.mp member with rfl | later
  · exact ident
  · exact List.mem_takeWhile_imp later

theorem endsInName_run {c : Char} (ident : isIdentChar c = true) (rest : List Char) :
    EndsInName (c :: rest.takeWhile isIdentChar) :=
  .of_forall (List.cons_ne_nil _ _) (forall_isIdentChar_run ident rest)

theorem freeNamesFrom_run {c : Char} (ident : isIdentChar c = true) (front rest : List Char) :
    freeNamesFrom front (c :: rest.takeWhile isIdentChar) =
      if isFree front (c :: rest.takeWhile isIdentChar) then [c :: rest.takeWhile isIdentChar]
      else [] := by
  have whole := fun d (member : d ∈ rest.takeWhile isIdentChar) =>
    List.mem_takeWhile_imp member
  have taken := List.takeWhile_eq_self_iff.mpr whole
  have dropped : (rest.takeWhile isIdentChar).dropWhile isIdentChar = [] :=
    List.dropWhile_eq_nil_iff.mpr whole
  rw [freeNamesFrom, if_pos ident, taken, dropped]
  simp [freeNamesFrom]

/-! ## Rules that write names -/

/-- A text that stands for a name wherever no `::` precedes it: it starts with a solid character and
ends with an identifier. -/
structure ReadsAsName (cs : List Char) : Prop where
  starts : ∀ c ∈ cs.head?, isSolid c = true
  ends : EndsInName cs

/-- Only free names are replaced, and only by texts that read as names. -/
structure RunRule.IsNaming (rule : RunRule) : Prop where
  outside : ∀ {front run behind text : List Char}, rule front run behind = some text →
    endsInScope front = false
  named : ∀ {front run behind text : List Char}, (∀ c ∈ run, isIdentChar c = true) →
    run ≠ [] → rule front run behind = some text → ReadsAsName text

theorem RunRule.IsNaming.freeNamesFrom_rewriteRuns {rule : RunRule} (naming : rule.IsNaming)
    {left front : List Char} (alike : EndAlike left front) (cs : List Char) :
    freeNamesFrom left (rewriteRuns rule front cs) = namesAfter rule front cs := by
  fun_induction rewriteRuns rule front cs generalizing left with
  | case1 front => rw [freeNamesFrom, namesAfter]
  | case2 front c rest ident run behind =>
      rename_i ih
      have sameEnd : endsInScope left = endsInScope front := by simpa using alike []
      have apart := (startsApart_dropWhile rest).rewriteRuns rule (front ++ run)
      rw [namesAfter, if_pos ident, freeNamesFrom_append left _ apart]
      change freeNamesFrom left ((rule front run behind).getD run) ++ _ =
        runNames rule front run behind ++ namesAfter rule (front ++ run) behind
      rw [runNames]
      cases written : rule front run behind with
      | none =>
          rw [Option.getD_none, ih (alike.append run), freeNamesFrom_run ident, isFree, isFree,
            sameEnd]
      | some text =>
          have reads := naming.named (forall_isIdentChar_run ident rest)
            (List.cons_ne_nil _ _) written
          have names := freeNamesFrom_eq_freeNames (sameEnd.trans (naming.outside written))
            reads.starts
          have after := reads.ends.endAlike (endsInName_run ident rest) left front
          rw [Option.getD_some, ih after, names]
  | case3 front c rest other ih =>
      rw [freeNamesFrom, if_neg other, namesAfter, if_neg other, ih (alike.append [c])]

/-- What a rule that writes names makes of a text has the names that it gives to the runs. -/
theorem RunRule.IsNaming.freeNames_rewriteRuns {rule : RunRule} (naming : rule.IsNaming)
    (cs : List Char) : freeNames (rewriteRuns rule [] cs) = namesAfter rule [] cs := by
  rw [freeNames_eq]
  exact naming.freeNamesFrom_rewriteRuns (fun _ => rfl) cs

/-! ## Words -/

section

variable {meaning : List Char → Option (List Char)}

theorem replacement?_eq (front run : List Char) :
    replacement? meaning front run = if isFree front run then meaning run else none := by
  cases digit : startsWithDigit run <;> cases inScope : endsInScope front <;>
    simp [replacement?, isFree, endsInScope, digit] at inScope ⊢ <;> simp [inScope]

/-- What a free name becomes. -/
def namesOf (meaning : List Char → Option (List Char)) (word : List Char) : List (List Char) :=
  match meaning word with
  | some text => freeNames text
  | none => [word]

theorem namesAfter_wordRule (front cs : List Char) :
    namesAfter (wordRule meaning) front cs =
      (freeNamesFrom front cs).flatMap (namesOf meaning) := by
  fun_induction freeNamesFrom front cs with
  | case1 front => rw [namesAfter, List.flatMap_nil]
  | case2 front c rest ident run ih =>
      rw [namesAfter, if_pos ident, List.flatMap_append]
      refine congr_arg₂ (· ++ ·) ?_ ih
      change runNames (wordRule meaning) front run _ = _
      rw [runNames, wordRule, replacement?_eq]
      cases isFree front run with
      | false => rfl
      | true => cases known : meaning run <;> simp [namesOf, known]
  | case3 front c rest other ih => rw [namesAfter, if_neg other, ih]

theorem wordRule_isNaming
    (reads : ∀ {word text : List Char}, word ≠ [] → (∀ c ∈ word, isIdentChar c = true) →
      meaning word = some text → ReadsAsName text) : (wordRule meaning).IsNaming := by
  constructor
  · intro front run behind text written
    rw [wordRule, replacement?_eq, Option.ite_none_right_eq_some] at written
    have free := written.1
    simp only [isFree, Bool.and_eq_true, Bool.not_eq_true'] at free
    exact free.2
  · intro front run behind text ident nonempty written
    rw [wordRule, replacement?_eq, Option.ite_none_right_eq_some] at written
    exact reads nonempty ident written.2

/-! ## Longer names -/

variable (longer : ∀ word text : List Char, meaning word = some text →
  word.length < text.length)

include longer

theorem length_le_replaceWords (front cs : List Char) :
    cs.length ≤ (replaceWords meaning front cs).length := by
  fun_induction replaceWords meaning front cs with
  | case1 front => exact Nat.le_refl 0
  | case2 front c rest ident run ih =>
      have cut : c :: rest = run ++ rest.dropWhile isIdentChar := by
        simp [run, List.takeWhile_append_dropWhile]
      have here : run.length ≤ ((replacement? meaning front run).getD run).length := by
        cases written : replacement? meaning front run with
        | none => exact Nat.le_refl _
        | some text =>
            rw [replacement?_eq, Option.ite_none_right_eq_some] at written
            exact Nat.le_of_lt (longer run text written.2)
      rw [cut, List.length_append, List.length_append]
      exact Nat.add_le_add here ih
  | case3 front c rest other ih =>
      rw [List.length_cons, List.length_cons]
      exact Nat.succ_le_succ ih

/-- If only longer texts are written, a text stays as it is exactly if there is nothing to
replace. -/
theorem replaceWords_eq_self_iff (front cs : List Char) :
    replaceWords meaning front cs = cs ↔ ∀ word ∈ freeNamesFrom front cs, meaning word = none := by
  fun_induction replaceWords meaning front cs with
  | case1 front => simp [freeNamesFrom]
  | case2 front c rest ident run ih =>
      have cut : c :: rest = run ++ rest.dropWhile isIdentChar := by
        simp [run, List.takeWhile_append_dropWhile]
      have names : freeNamesFrom front (c :: rest) =
          (if isFree front run then [run] else []) ++
            freeNamesFrom (front ++ run) (rest.dropWhile isIdentChar) := by
        rw [freeNamesFrom, if_pos ident]
      rw [names, cut, replacement?_eq]
      cases free : isFree front run with
      | false => simpa using ih
      | true =>
          cases known : meaning run with
          | none => simpa [known] using ih
          | some text =>
              have grown := longer run text known
              have after := length_le_replaceWords longer (front ++ run)
                (rest.dropWhile isIdentChar)
              have changed : text ++ replaceWords meaning (front ++ run)
                  (rest.dropWhile isIdentChar) ≠ run ++ rest.dropWhile isIdentChar := by
                intro same
                have sizes := congrArg List.length same
                rw [List.length_append, List.length_append] at sizes
                omega
              simp [changed, known]
  | case3 front c rest other ih =>
      rw [freeNamesFrom, if_neg other, ← ih]
      exact List.cons_inj_right c

end

end Chars

end Bindery
