import Bindery.Proofs.Spelling.Names
import Bindery.Proofs.Text.WholeWord

/-!
# Names behind `typename`

Behind the word `typename` the name of a template is written out if its arguments follow at once.
This is one more rule for the runs of a text: it looks back at the last word and ahead at the next
character.
-/

set_option autoImplicit false

namespace Bindery

namespace Chars

/-- The identifier characters at the end of a text, white space aside. -/
def lastWord (cs : List Char) : List Char :=
  ((cs.reverse.dropWhile isBlank).takeWhile isIdentChar).reverse

theorem lastWord_run {front run : List Char} (nonempty : run ≠ [])
    (ident : ∀ c ∈ run, isIdentChar c = true)
    (apart : ∀ c ∈ front.getLast?, isIdentChar c = false) : lastWord (front ++ run) = run := by
  have shown : (run.reverse ++ front.reverse).dropWhile isBlank = run.reverse ++ front.reverse := by
    cases reversed : run.reverse with
    | nil => exact absurd (List.reverse_eq_nil_iff.mp reversed) nonempty
    | cons c others =>
        have own := ident c (List.mem_reverse.mp (reversed ▸ List.mem_cons_self))
        exact List.dropWhile_cons_of_neg (by simp [isBlank_eq_false_of_isIdentChar own])
  have ends : front.reverse.takeWhile isIdentChar = [] := by
    cases reversed : front.reverse with
    | nil => rfl
    | cons c others =>
        have last : front.getLast? = some c := by
          rw [← List.head?_reverse, reversed, List.head?_cons]
        exact List.takeWhile_cons_of_neg (by simp [apart c last])
  rw [lastWord, List.reverse_append, shown,
    List.takeWhile_append_of_pos fun c member => ident c (List.mem_reverse.mp member), ends,
    List.append_nil, List.reverse_reverse]

theorem lastWord_blank {c : Char} (blank : isBlank c = true) (front : List Char) :
    lastWord (front ++ [c]) = lastWord front := by
  rw [lastWord, List.reverse_append, List.reverse_singleton, List.singleton_append,
    List.dropWhile_cons_of_pos blank, lastWord]

theorem lastWord_other {c : Char} (shown : isBlank c = false) (other : isIdentChar c = false)
    (front : List Char) : lastWord (front ++ [c]) = [] := by
  rw [lastWord, List.reverse_append, List.reverse_singleton, List.singleton_append,
    List.dropWhile_cons_of_neg (by simp [shown]), List.takeWhile_cons_of_neg (by simp [other])]
  rfl

/-- A text whose last word is not empty does not end in `::`. -/
theorem endsInScope_eq_false_of_lastWord {front : List Char} (word : lastWord front ≠ []) :
    endsInScope front = false := by
  rw [endsInScope_eq]
  rw [lastWord] at word
  cases trimmed : front.reverse.dropWhile isBlank with
  | nil => rfl
  | cons c rest =>
      have own : isIdentChar c = true := by
        by_contra other
        rw [trimmed, List.takeWhile_cons_of_neg other] at word
        exact word rfl
      have colon : ':' ≠ c := by
        rintro rfl
        exact absurd own (by decide)
      simp [List.isPrefixOf, colon]

end Chars

namespace TypeRegistries

open Chars

variable (registries : TypeRegistries)

def typenameWord : List Char :=
  "typename".toList

/-- The rule for names of templates behind the word `typename`. -/
def typenameRule : RunRule :=
  fun front run behind =>
    if lastWord front = typenameWord ∧ behind.head? = some '<' then
      registries.meaning run
    else
      none

/-- The edit for the first name of what follows the word `typename`. -/
def nextEdit? (pos : Nat) (after : List Char) : Option Edit :=
  let trimmed := trimStart after
  let start := pos + (after.length - trimmed.length)
  let name := trimmed.takeWhile isIdentChar
  if (trimmed.drop name.length).head? == some '<' then
    (registries.meaning name).map fun text => ⟨start, start + name.length, text⟩
  else
    none

theorem typenameEdit?_eq (cs : List Char) (place : Nat) :
    registries.typenameEdit? cs place =
      registries.nextEdit? (place + typenameWord.length) (cs.drop (place + typenameWord.length)) := by
  simp only [typenameEdit?, nextEdit?, meaning, Option.map_map]
  rfl

theorem nextEdit?_blank {c : Char} (blank : isBlank c = true) (pos : Nat) (rest : List Char) :
    registries.nextEdit? pos (c :: rest) = registries.nextEdit? (pos + 1) rest := by
  have trimmed : trimStart (c :: rest) = trimStart rest := List.dropWhile_cons_of_pos blank
  have shorter : (trimStart rest).length ≤ rest.length :=
    (List.dropWhile_suffix (l := rest) isBlank).length_le
  have start : pos + ((c :: rest).length - (trimStart rest).length) =
      pos + 1 + (rest.length - (trimStart rest).length) := by
    rw [List.length_cons]
    omega
  simp only [nextEdit?, trimmed, start]

theorem nextEdit?_other {registries : TypeRegistries} (unnamed : registries.meaning [] = none)
    {c : Char} (shown : isBlank c = false) (other : isIdentChar c = false) (pos : Nat)
    (rest : List Char) : registries.nextEdit? pos (c :: rest) = none := by
  have trimmed : trimStart (c :: rest) = c :: rest := List.dropWhile_cons_of_neg (by simp [shown])
  have nothing : (c :: rest).takeWhile isIdentChar = [] :=
    List.takeWhile_cons_of_neg (by simp [other])
  simp [nextEdit?, trimmed, nothing, unnamed]

theorem nextEdit?_run {c : Char} (ident : isIdentChar c = true) (front rest : List Char) :
    (registries.typenameRule).edit? (front ++ c :: rest)
        (front.length, c :: rest.takeWhile isIdentChar) =
      if lastWord front = typenameWord then registries.nextEdit? front.length (c :: rest)
      else none := by
  have shown := isBlank_eq_false_of_isIdentChar ident
  have trimmed : trimStart (c :: rest) = c :: rest := List.dropWhile_cons_of_neg (by simp [shown])
  have taken : (c :: rest).takeWhile isIdentChar = c :: rest.takeWhile isIdentChar :=
    List.takeWhile_cons_of_pos ident
  have cut : c :: rest = (c :: rest.takeWhile isIdentChar) ++ rest.dropWhile isIdentChar := by
    simp [List.takeWhile_append_dropWhile]
  have behind : (c :: rest).drop (c :: rest.takeWhile isIdentChar).length =
      rest.dropWhile isIdentChar := by
    rw [cut, List.drop_left' (by simp)]
  have after : (front ++ c :: rest).drop (front.length + (c :: rest.takeWhile isIdentChar).length) =
      rest.dropWhile isIdentChar := by
    rw [← List.drop_drop, List.drop_left, behind]
  rw [RunRule.edit?, after, List.take_left, typenameRule, nextEdit?]
  simp only [trimmed, taken, behind, Nat.sub_self, Nat.add_zero]
  by_cases follows : lastWord front = typenameWord
  · rw [if_pos follows]
    by_cases opens : (rest.dropWhile isIdentChar).head? = some '<'
    · rw [if_pos ⟨follows, opens⟩, if_pos (beq_iff_eq.mpr opens)]
    · rw [if_neg fun both => opens both.2, if_neg fun same => opens (beq_iff_eq.mp same),
        Option.map_none]
  · rw [if_neg follows, if_neg fun both => follows both.1, Option.map_none]

theorem nextEdit?_nil (pos : Nat) : registries.nextEdit? pos [] = none := by
  simp [nextEdit?, trimStart]

/-- The edit that a `typename` at the end of `front` waits for. -/
def awaitedEdits (front cs : List Char) : List Edit :=
  if lastWord front = typenameWord then (registries.nextEdit? front.length cs).toList else []

theorem awaitedEdits_nil (front : List Char) : registries.awaitedEdits front [] = [] := by
  rw [awaitedEdits, nextEdit?_nil, Option.toList_none, ite_self]

/-- A blank leaves the `typename` waiting, and behind anything else nothing is waited for. -/
theorem awaitedEdits_other {registries : TypeRegistries} (unnamed : registries.meaning [] = none)
    {c : Char} (other : isIdentChar c = false) (front rest : List Char) :
    registries.awaitedEdits (front ++ [c]) rest = registries.awaitedEdits front (c :: rest) := by
  rw [awaitedEdits, awaitedEdits, List.length_append, List.length_singleton]
  cases blank : isBlank c with
  | true => rw [lastWord_blank blank, nextEdit?_blank registries blank]
  | false =>
      have noWord : ([] : List Char) ≠ typenameWord := by decide
      rw [lastWord_other blank other, if_neg noWord, nextEdit?_other unnamed blank other,
        Option.toList_none, ite_self]

theorem filterMap_edit?_run {c : Char} (ident : isIdentChar c = true) (front rest : List Char) :
    [(front.length, c :: rest.takeWhile isIdentChar)].filterMap
        (registries.typenameRule.edit? (front ++ c :: rest)) =
      registries.awaitedEdits front (c :: rest) := by
  rw [List.filterMap_cons, nextEdit?_run registries ident, awaitedEdits]
  by_cases follows : lastWord front = typenameWord
  · rw [if_pos follows, if_pos follows]
    cases registries.nextEdit? front.length (c :: rest) <;> rfl
  · rw [if_neg follows, if_neg follows]
    rfl

theorem filterMap_typenameEdit?_run (front run behind : List Char) :
    (if run = typenameWord then [front.length] else []).filterMap
        (registries.typenameEdit? (front ++ run ++ behind)) =
      if run = typenameWord then (registries.nextEdit? (front ++ run).length behind).toList
      else [] := by
  by_cases isWord : run = typenameWord
  · have size : front.length + typenameWord.length = (front ++ run).length := by
      rw [← isWord, List.length_append]
    rw [if_pos isWord, if_pos isWord, List.filterMap_cons, typenameEdit?_eq, size, List.drop_left]
    cases registries.nextEdit? (front ++ run).length behind <;> rfl
  · rw [if_neg isWord, if_neg isWord]
    rfl

/-- The edits for what stands behind `front` are those behind each `typename` of it, and one more if
`front` ends in that word. -/
theorem filterMap_typenameRule_edit? {registries : TypeRegistries}
    (unnamed : registries.meaning [] = none) (front cs : List Char)
    (apart : (∀ c ∈ front.getLast?, isIdentChar c = false) ∨ StartsApart cs) :
    (runsFrom front.length cs).filterMap (registries.typenameRule.edit? (front ++ cs)) =
      registries.awaitedEdits front cs ++
      (runPlaces typenameWord front.length cs).filterMap
        (registries.typenameEdit? (front ++ cs)) := by
  fun_induction freeNamesFrom front cs with
  | case1 front =>
      rw [awaitedEdits_nil, runPlaces, runsFrom]
      rfl
  | case2 front c rest ident run ih =>
      have cut : front ++ c :: rest = front ++ run ++ rest.dropWhile isIdentChar := by
        simp [run, List.takeWhile_append_dropWhile]
      have frontApart : ∀ d ∈ front.getLast?, isIdentChar d = false := by
        rcases apart with ends | starts
        · exact ends
        · exact absurd (starts c rfl) (by simp [ident])
      have word := lastWord_run (List.cons_ne_nil c _) (forall_isIdentChar_run ident rest)
        frontApart
      have place : front.length + (rest.takeWhile isIdentChar).length + 1 =
          (front ++ run).length := by
        rw [List.length_append, Nat.add_assoc]
        rfl
      have runs : runsFrom front.length (c :: rest) =
          [(front.length, run)] ++
            runsFrom (front ++ run).length (rest.dropWhile isIdentChar) := by
        rw [runsFrom, if_pos ident, List.length_append]
        rfl
      have here : [(front.length, run)].filterMap
          (registries.typenameRule.edit? (front ++ c :: rest)) =
            registries.awaitedEdits front (c :: rest) :=
        registries.filterMap_edit?_run ident front rest
      have awaited := registries.filterMap_typenameEdit?_run front run (rest.dropWhile isIdentChar)
      have behind := ih (.inr (startsApart_dropWhile rest))
      rw [← cut] at awaited behind
      rw [awaitedEdits, word, ← awaited] at behind
      rw [runs, List.filterMap_append, here, behind, runPlaces_run ident, place,
        List.filterMap_append]
  | case3 front c rest other ih =>
      have unnamedChar : isIdentChar c = false := by simpa using other
      have runs : runsFrom front.length (c :: rest) = runsFrom (front ++ [c]).length rest := by
        rw [runsFrom, if_neg other, List.length_append, List.length_singleton]
      have ends : ∀ d ∈ (front ++ [c]).getLast?, isIdentChar d = false := by
        intro d last
        rw [List.getLast?_concat] at last
        cases last
        exact unnamedChar
      have cut : front ++ [c] ++ rest = front ++ c :: rest := by simp
      have behind := ih (.inl ends)
      rw [cut] at behind
      rw [runs, behind, runPlaces_other unnamedChar, List.length_append, List.length_singleton,
        awaitedEdits_other unnamed unnamedChar]

/-- Writing out the names behind `typename` follows one rule for all runs of a text. -/
theorem toList_qualifyTypenames {registries : TypeRegistries}
    (unnamed : registries.meaning [] = none) (spelling : String) :
    (registries.qualifyTypenames spelling).toList =
      rewriteRuns registries.typenameRule [] spelling.toList := by
  have places : findWord spelling.toList typenameWord =
      runPlaces typenameWord 0 spelling.toList :=
    findWord_eq_runPlaces (by decide) (List.all_eq_true.mp (by decide)) spelling.toList
  have edits := filterMap_typenameRule_edit? unnamed [] spelling.toList (.inl nofun)
  rw [List.length_nil, List.nil_append, awaitedEdits, if_neg (by decide), List.nil_append,
    ← places] at edits
  rw [← RunRule.apply_edits, RunRule.edits, edits, qualifyTypenames, String.toList_ofList]
  rfl

end TypeRegistries

end Bindery
