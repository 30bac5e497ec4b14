import Bindery.Proofs.Text.Rewriting
import Bindery.Proofs.Text.Trimming

/-!
# Substitution word by word

What a substitution makes of a text, told without edits and places: the text is read once, each
whole run of identifier characters that stands for an argument gives way to it, and every other
character is copied.  What is written is not read again, so that a parameter's name inside of an
argument means nothing.
-/

set_option autoImplicit false

namespace Bindery

namespace Chars

/-! ## Behind a scope -/

/-- Whether a text ends in `::`, perhaps with white space behind it. -/
def FollowsScope (front : List Char) : Prop :=
  ∃ outer blanks, front = outer ++ [':', ':'] ++ blanks ∧ IsBlankText blanks

theorem endsInScope_iff {front : List Char} : endsInScope front = true ↔ FollowsScope front := by
  rw [endsInScope_eq, List.isPrefixOf_iff_prefix]
  constructor
  · rintro ⟨outer, cut⟩
    refine ⟨outer.reverse, (front.reverse.takeWhile isBlank).reverse, ?_, ?_⟩
    · have parts := List.takeWhile_append_dropWhile (p := isBlank) (l := front.reverse)
      rw [← cut] at parts
      have whole := congrArg List.reverse parts
      simpa using whole.symm
    · exact fun c member => List.mem_takeWhile_imp (List.mem_reverse.mp member)
  · rintro ⟨outer, blanks, rfl, blank⟩
    have passed : ∀ c ∈ blanks.reverse, isBlank c = true := fun c member =>
      blank c (List.mem_reverse.mp member)
    have colon : isBlank ':' = false := by decide
    rw [List.reverse_append, List.dropWhile_append_of_pos passed, List.reverse_append,
      List.reverse_cons, List.reverse_singleton, List.singleton_append, List.cons_append,
      List.dropWhile_cons_of_neg (by simp [colon])]
    exact List.prefix_append [':', ':'] outer.reverse

/-! ## Whole runs -/

/-- A run of identifier characters with which the text behind it does not go on. -/
structure IsRun (run behind : List Char) : Prop where
  nonempty : run ≠ []
  ident : ∀ c ∈ run, isIdentChar c = true
  whole : StartsApart behind

theorem isRun_takeWhile {c : Char} (ident : isIdentChar c = true) (rest : List Char) :
    IsRun (c :: rest.takeWhile isIdentChar) (rest.dropWhile isIdentChar) where
  nonempty := List.cons_ne_nil _ _
  ident := forall_isIdentChar_run ident rest
  whole := startsApart_dropWhile rest

section

variable {meaning : List Char → Option (List Char)}

theorem IsRun.replaceWords_append {run behind : List Char} (isRun : IsRun run behind)
    (front : List Char) :
    replaceWords meaning front (run ++ behind) =
      (replacement? meaning front run).getD run ++ replaceWords meaning (front ++ run) behind := by
  obtain ⟨c, rest, rfl⟩ := List.exists_cons_of_ne_nil isRun.nonempty
  have others : ∀ d ∈ rest, isIdentChar d = true := fun d member =>
    isRun.ident d (List.mem_cons_of_mem c member)
  obtain ⟨taken, dropped⟩ := isRun.whole.takeWhile_append rest
  rw [List.takeWhile_eq_self_iff.mpr others] at taken
  rw [List.dropWhile_eq_nil_iff.mpr others, List.nil_append] at dropped
  rw [List.cons_append, replaceWords, if_pos (isRun.ident c List.mem_cons_self), taken, dropped]

theorem replaceWords_plain {c : Char} (other : isIdentChar c = false) (front rest : List Char) :
    replaceWords meaning front (c :: rest) = c :: replaceWords meaning (front ++ [c]) rest := by
  rw [replaceWords, if_neg (by simp [other])]

/-- Characters that belong to no identifier are copied. -/
theorem replaceWords_others_append {others : List Char}
    (plain : ∀ c ∈ others, isIdentChar c = false) (front cs : List Char) :
    replaceWords meaning front (others ++ cs) =
      others ++ replaceWords meaning (front ++ others) cs := by
  induction others generalizing front with
  | nil => rw [List.nil_append, List.append_nil, List.nil_append]
  | cons c others ih =>
      rw [List.cons_append, replaceWords_plain (plain c List.mem_cons_self),
        ih fun d member => plain d (List.mem_cons_of_mem c member), List.append_assoc]
      rfl

theorem replaceWords_others {others : List Char} (plain : ∀ c ∈ others, isIdentChar c = false)
    (front : List Char) : replaceWords meaning front others = others := by
  have whole : replaceWords meaning front (others ++ []) = _ :=
    replaceWords_others_append plain front []
  rwa [List.append_nil, replaceWords, List.append_nil] at whole

end

end Chars

namespace Text

open Chars

/-! ## Arguments for words -/

/-- Whether a run of identifier characters behind `front` stands for an argument: it is no number,
it follows no `::`, and there is an argument in the place of the first parameter of that name. -/
structure StandsFor (params args : List String) (front run : List Char) (arg : String) : Prop where
  letter : startsWithDigit run = false
  free : ¬ FollowsScope front
  argument : ∃ i : Nat, params[i]? = some (String.ofList run) ∧ args[i]? = some arg ∧
    ∀ j < i, params[j]? ≠ some (String.ofList run)

theorem lookup_zip_eq_some_iff {params args : List String} {word arg : String} :
    (params.zip args).lookup word = some arg ↔
      ∃ i : Nat, params[i]? = some word ∧ args[i]? = some arg ∧ ∀ j < i, params[j]? ≠ some word := by
  induction params generalizing args with
  | nil => simp
  | cons param params ih =>
      cases args with
      | nil => simp
      | cons first args =>
          rw [List.zip_cons_cons, List.lookup_cons]
          by_cases same : word = param
          · subst same
            simp only [beq_self_eq_true]
            constructor
            · intro found
              exact ⟨0, rfl, found, nofun⟩
            · rintro ⟨i, -, found, earliest⟩
              cases i with
              | zero => exact found
              | succ i => exact absurd rfl (earliest 0 (Nat.succ_pos i))
          · rw [beq_eq_false_iff_ne.mpr same]
            refine ih.trans ⟨?_, ?_⟩
            · rintro ⟨i, named, found, earliest⟩
              refine ⟨i + 1, named, found, fun j before => ?_⟩
              cases j with
              | zero => simpa using Ne.symm same
              | succ j => exact earliest j (Nat.lt_of_succ_lt_succ before)
            · rintro ⟨i, named, found, earliest⟩
              cases i with
              | zero => exact absurd (Option.some.inj named).symm same
              | succ i =>
                  exact ⟨i, named, found, fun j before => earliest (j + 1) (Nat.succ_lt_succ before)⟩

/-- What the words of a text stand for under a substitution. -/
def meaningOf (params args : List String) (word : List Char) : Option (List Char) :=
  ((params.zip args).lookup (String.ofList word)).map String.toList

theorem replacement?_meaningOf_eq_some_iff {params args : List String} {front run text : List Char} :
    replacement? (meaningOf params args) front run = some text ↔
      ∃ arg, StandsFor params args front run arg ∧ arg.toList = text := by
  have free : isFree front run = true ↔ startsWithDigit run = false ∧ ¬ FollowsScope front := by
    rw [← endsInScope_iff, isFree, Bool.and_eq_true, Bool.not_eq_true', Bool.not_eq_true',
      Bool.not_eq_true]
  rw [replacement?_eq, Option.ite_none_right_eq_some, meaningOf, Option.map_eq_some_iff]
  constructor
  · rintro ⟨clear, arg, found, rfl⟩
    obtain ⟨letter, outside⟩ := free.mp clear
    exact ⟨arg, ⟨letter, outside, lookup_zip_eq_some_iff.mp found⟩, rfl⟩
  · rintro ⟨arg, ⟨letter, outside, argument⟩, rfl⟩
    exact ⟨free.mpr ⟨letter, outside⟩, arg, lookup_zip_eq_some_iff.mpr argument, rfl⟩

/-! ## Reading once -/

/-- A text that stands behind `front` and what a substitution makes of it. -/
inductive Substituted (params args : List String) : List Char → List Char → List Char → Prop
  | done (front : List Char) : Substituted params args front [] []
  /-- A character that belongs to no run is copied. -/
  | plain {front rest result : List Char} {c : Char} (other : isIdentChar c = false)
      (later : Substituted params args (front ++ [c]) rest result) :
      Substituted params args front (c :: rest) (c :: result)
  /-- A run that stands for an argument gives way to it. -/
  | replaced {front run behind result : List Char} {arg : String} (isRun : IsRun run behind)
      (stands : StandsFor params args front run arg)
      (later : Substituted params args (front ++ run) behind result) :
      Substituted params args front (run ++ behind) (arg.toList ++ result)
  /-- A run that stands for none is copied. -/
  | kept {front run behind result : List Char} (isRun : IsRun run behind)
      (own : ∀ arg, ¬ StandsFor params args front run arg)
      (later : Substituted params args (front ++ run) behind result) :
      Substituted params args front (run ++ behind) (run ++ result)

variable {params args : List String}

theorem Substituted.eq_replaceWords {front text result : List Char}
    (substituted : Substituted params args front text result) :
    result = Chars.replaceWords (meaningOf params args) front text := by
  induction substituted with
  | done front => rw [Chars.replaceWords]
  | plain other later ih => rw [replaceWords_plain other, ih]
  | @replaced front run behind result arg isRun stands later ih =>
      have written := replacement?_meaningOf_eq_some_iff.mpr ⟨arg, stands, rfl⟩
      rw [isRun.replaceWords_append, written, Option.getD_some, ih]
  | @kept front run behind result isRun own later ih =>
      have nothing : replacement? (meaningOf params args) front run = none := by
        refine Option.eq_none_iff_forall_ne_some.mpr fun text written => ?_
        obtain ⟨arg, stands, -⟩ := replacement?_meaningOf_eq_some_iff.mp written
        exact own arg stands
      rw [isRun.replaceWords_append, nothing, Option.getD_none, ih]

theorem substituted_replaceWords (front text : List Char) :
    Substituted params args front text (Chars.replaceWords (meaningOf params args) front text) := by
  fun_induction Chars.replaceWords (meaningOf params args) front text with
  | case1 front => exact .done front
  | case2 front c rest ident run ih =>
      have isRun : IsRun run (rest.dropWhile isIdentChar) := isRun_takeWhile ident rest
      have parts : c :: rest = run ++ rest.dropWhile isIdentChar := by
        simp [run, List.takeWhile_append_dropWhile]
      rw [parts]
      cases written : replacement? (meaningOf params args) front run with
      | none =>
          refine .kept isRun (fun arg stands => ?_) ih
          have some := replacement?_meaningOf_eq_some_iff.mpr ⟨arg, stands, rfl⟩
          rw [written] at some
          cases some
      | some text =>
          obtain ⟨arg, stands, rfl⟩ := replacement?_meaningOf_eq_some_iff.mp written
          exact .replaced isRun stands ih
  | case3 front c rest other ih => exact .plain (by simpa using other) ih

theorem toList_substitute (s : String) (params args : List String) :
    (substitute s params args).toList = Chars.replaceWords (meaningOf params args) [] s.toList := by
  rw [substitute_eq_replaceWords, replaceWords, String.toList_ofList]
  rfl

/-- A substitution writes the argument of the first parameter of its name for each whole word that
follows no `::`, all words at once, and changes nothing else. -/
theorem substitution_is_simultaneous (s result : String) (params args : List String) :
    substitute s params args = result ↔
      Substituted params args [] s.toList result.toList := by
  rw [← String.toList_inj, toList_substitute]
  constructor
  · rintro same
    rw [← same]
    exact substituted_replaceWords [] s.toList
  · exact fun substituted => substituted.eq_replaceWords.symm

/-- Names that are exchanged, a name in a scope, a longer name and a number. -/
example : substitute "A::T<T, U>, TU, 2T, :: U" ["T", "U"] ["U*", "T&"] =
    "A::T<U*, T&>, TU, 2T, :: U" := by
  rw [← String.toList_inj, toList_substitute]
  decide +kernel

end Text

end Bindery
