import Bindery.Proofs.Text.Composition

/-!
# Words of a text

The words of a text are its maximal runs of identifier characters.  Where names are written out, a
word stays or gives way to the words of what stands for it.
-/

set_option autoImplicit false

namespace Bindery

namespace Chars

/-- The maximal runs of identifier characters of a text. -/
def words (cs : List Char) : List (List Char) :=
  (runsFrom 0 cs).map (·.2)

theorem map_runsFrom (pos : Nat) (cs : List Char) : (runsFrom pos cs).map (·.2) = words cs := by
  have alike : ∀ pos other : Nat,
      (runsFrom pos cs).map (·.2) = (runsFrom other cs).map (·.2) := by
    intro pos other
    fun_induction runsFrom pos cs generalizing other with
    | case1 => rw [runsFrom]
    | case2 pos c rest ident run ih =>
        rw [runsFrom, if_pos ident, List.map_cons, List.map_cons, ih]
    | case3 pos c rest plain ih => rw [runsFrom, if_neg plain, ih]
  exact alike pos 0

theorem words_nil : words [] = [] := by
  rw [words, runsFrom, List.map_nil]

theorem words_run {c : Char} (ident : isIdentChar c = true) (rest : List Char) :
    words (c :: rest) =
      (c :: rest.takeWhile isIdentChar) :: words (rest.dropWhile isIdentChar) := by
  rw [words, runsFrom, if_pos ident, List.map_cons, map_runsFrom]

theorem words_plain {c : Char} (other : isIdentChar c = false) (rest : List Char) :
    words (c :: rest) = words rest := by
  rw [words, runsFrom, if_neg (by simp [other]), map_runsFrom]

/-- A text can be read in two parts if no word is cut. -/
theorem words_append (left : List Char) {right : List Char} (apart : StartsApart right) :
    words (left ++ right) = words left ++ words right := by
  match left with
  | [] => rw [words_nil, List.nil_append, List.nil_append]
  | c :: rest =>
      rw [List.cons_append]
      cases ident : isIdentChar c with
      | false =>
          rw [words_plain ident, words_plain ident, words_append rest apart]
      | true =>
          obtain ⟨taken, dropped⟩ := apart.takeWhile_append rest
          rw [words_run ident, words_run ident, taken, dropped,
            words_append (rest.dropWhile isIdentChar) apart, List.cons_append]
termination_by left.length
decreasing_by
  · simp
  · have := (List.dropWhile_suffix (l := rest) isIdentChar).length_le
    simp only [List.length_cons]
    omega

theorem words_eq_self {run : List Char} (nonempty : run ≠ [])
    (ident : ∀ c ∈ run, isIdentChar c = true) : words run = [run] := by
  obtain ⟨c, rest, rfl⟩ := List.exists_cons_of_ne_nil nonempty
  have others : ∀ d ∈ rest, isIdentChar d = true := fun d member =>
    ident d (List.mem_cons_of_mem c member)
  rw [words_run (ident c List.mem_cons_self), List.takeWhile_eq_self_iff.mpr others,
    List.dropWhile_eq_nil_iff.mpr others, words_nil]

/-! ## Words of rewritten texts -/

section

variable {meaning : List Char → Option (List Char)}

/-- A word of a rewritten text was there before or has been written. -/
theorem mem_words_of_replaceWords {word front cs : List Char}
    (member : word ∈ words (replaceWords meaning front cs)) :
    word ∈ words cs ∨ ∃ run text, meaning run = some text ∧ word ∈ words text := by
  fun_induction replaceWords meaning front cs with
  | case1 => exact .inl member
  | case2 front c rest ident run =>
      rename_i ih
      have isRun := isRun_takeWhile ident rest
      have apart : StartsApart (replaceWords meaning (front ++ run) _) :=
        startsApart_replaceWords (startsApart_dropWhile rest) (front ++ run)
      rw [words_run ident]
      rw [words_append _ apart] at member
      rcases List.mem_append.mp member with here | behind
      · cases written : replacement? meaning front run with
        | none =>
            rw [written, Option.getD_none, words_eq_self isRun.nonempty isRun.ident,
              List.mem_singleton] at here
            exact .inl (here ▸ List.mem_cons_self)
        | some text =>
            rw [written, Option.getD_some] at here
            rw [replacement?_eq, Option.ite_none_right_eq_some] at written
            exact .inr ⟨run, text, written.2, here⟩
      · exact (ih behind).imp_left (List.mem_cons_of_mem _)
  | case3 front c rest other ih =>
      have plain : isIdentChar c = false := by simpa using other
      rw [words_plain plain] at member ⊢
      exact ih member

/-- If what is written for a word contains it, then no word is lost. -/
theorem mem_words_replaceWords
    (contains : ∀ run text, run ≠ [] → (∀ c ∈ run, isIdentChar c = true) →
      meaning run = some text → run ∈ words text)
    {word front cs : List Char} (member : word ∈ words cs) :
    word ∈ words (replaceWords meaning front cs) := by
  fun_induction replaceWords meaning front cs with
  | case1 => exact member
  | case2 front c rest ident run =>
      rename_i ih
      have isRun := isRun_takeWhile ident rest
      have apart : StartsApart (replaceWords meaning (front ++ run) _) :=
        startsApart_replaceWords (startsApart_dropWhile rest) (front ++ run)
      rw [words_append _ apart]
      rw [words_run ident] at member
      rcases List.mem_cons.mp member with rfl | behind
      · refine List.mem_append_left _ ?_
        cases written : replacement? meaning front run with
        | none =>
            rw [Option.getD_none, words_eq_self isRun.nonempty isRun.ident]
            exact List.mem_singleton_self run
        | some text =>
            rw [replacement?_eq, Option.ite_none_right_eq_some] at written
            exact contains run text isRun.nonempty isRun.ident written.2
      · exact List.mem_append_right _ (ih behind)
  | case3 front c rest other ih =>
      have plain : isIdentChar c = false := by simpa using other
      rw [words_plain plain] at member ⊢
      exact ih member

end

end Chars

namespace Text

/-- The maximal runs of identifier characters of a text. -/
def words (s : String) : List String :=
  (Chars.words s.toList).map String.ofList

end Text

end Bindery
