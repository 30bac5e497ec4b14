import Bindery.Text.Word
import Mathlib.Data.List.TakeWhile

/-!
# Whole words

A word of identifier characters stands as a whole word where a maximal run of such characters equals
it.  The search passes over each occurrence that it meets, whole or not; the runs are found all the
same, since an occurrence never reaches over the end of a run.  Of other words, those that do not
start again inside of themselves are found wherever they stand as whole words.
-/

set_option autoImplicit false

namespace Bindery

namespace Chars

/-- The places of the runs that equal a word. -/
def runPlaces (word : List Char) (pos : Nat) (cs : List Char) : List Nat :=
  ((runsFrom pos cs).filter fun entry => entry.2 == word).map (·.1)

variable {word : List Char}

theorem runPlaces_run {c : Char} (ident : isIdentChar c = true) (pos : Nat) (rest : List Char) :
    runPlaces word pos (c :: rest) =
      (if c :: rest.takeWhile isIdentChar = word then [pos] else []) ++
        runPlaces word (pos + (rest.takeWhile isIdentChar).length + 1)
          (rest.dropWhile isIdentChar) := by
  have step : pos + (c :: rest.takeWhile isIdentChar).length =
      pos + (rest.takeWhile isIdentChar).length + 1 := by
    rw [List.length_cons, Nat.add_assoc]
  rw [runPlaces, runsFrom, if_pos ident, List.filter_cons]
  by_cases same : c :: rest.takeWhile isIdentChar = word
  · simp only [same, beq_self_eq_true, if_true, List.map_cons, ← step]
    rfl
  · rw [if_neg (by simpa using same), if_neg same, List.nil_append, step]
    rfl

theorem runPlaces_other {c : Char} (other : isIdentChar c = false) (pos : Nat)
    (rest : List Char) : runPlaces word pos (c :: rest) = runPlaces word (pos + 1) rest := by
  rw [runPlaces, runsFrom, if_neg (by simp [other])]
  rfl

/-- A word that starts a text starts its first run. -/
theorem takeWhile_of_isPrefix {cs : List Char} (ident : ∀ c ∈ word, isIdentChar c = true)
    (starts : word <+: cs) :
    cs.takeWhile isIdentChar = word ++ (cs.drop word.length).takeWhile isIdentChar := by
  obtain ⟨rest, rfl⟩ := starts
  rw [List.takeWhile_append_of_pos ident, List.drop_left]

theorem isBoundary_head?_iff (cs : List Char) :
    isBoundary cs.head? = true ↔ cs.takeWhile isIdentChar = [] := by
  cases cs with
  | nil => simp [isBoundary]
  | cons c rest => cases ident : isIdentChar c <;> simp [isBoundary, ident]

theorem isPrefixOf_cons_of_other (nonempty : word ≠ []) (ident : ∀ c ∈ word, isIdentChar c = true)
    {c : Char} (other : isIdentChar c = false) (rest : List Char) :
    word.isPrefixOf (c :: rest) = false := by
  refine Bool.eq_false_iff.mpr fun starts => ?_
  obtain ⟨d, others, rfl⟩ := List.exists_cons_of_ne_nil nonempty
  obtain ⟨tail, whole⟩ := List.isPrefixOf_iff_prefix.mp starts
  have first : d = c := List.head_eq_of_cons_eq whole
  have known := ident d List.mem_cons_self
  rw [first, other] at known
  cases known

/-- What is left of an occurrence does not reach over the end of the run that it starts. -/
theorem length_sub_one_le_of_isPrefix (ident : ∀ c ∈ word, isIdentChar c = true) {c : Char}
    (own : isIdentChar c = true) {rest : List Char} (starts : word <+: c :: rest) :
    word.length - 1 ≤ (rest.takeWhile isIdentChar).length := by
  have run := congrArg List.length (takeWhile_of_isPrefix ident starts)
  rw [List.takeWhile_cons_of_pos own, List.length_append, List.length_cons] at run
  omega

/-- The search through a text finds its runs, whether it starts behind the end of a word or inside
of one, of which it then passes the rest. -/
structure FindsRuns (word cs : List Char) : Prop where
  outside : ∀ pos before, isBoundary before = true →
    findWordFrom word before pos 0 cs = runPlaces word pos cs
  inside : ∀ pos before skip, isBoundary before = false →
    skip ≤ (cs.takeWhile isIdentChar).length →
      findWordFrom word before pos skip cs =
        runPlaces word (pos + (cs.takeWhile isIdentChar).length) (cs.dropWhile isIdentChar)

theorem findsRuns_nil (word : List Char) : FindsRuns word [] := by
  constructor
  · intro pos before _
    rw [findWordFrom, runPlaces, runsFrom]
    rfl
  · intro pos before skip _ _
    rw [findWordFrom, List.dropWhile_nil, runPlaces, runsFrom]
    rfl

namespace FindsRuns

variable {c : Char} {rest : List Char}

theorem cons_other (finds : FindsRuns word rest) (nonempty : word ≠ [])
    (ident : ∀ c ∈ word, isIdentChar c = true) (other : isIdentChar c = false) :
    FindsRuns word (c :: rest) := by
  have next : ∀ pos before, findWordFrom word before pos 0 (c :: rest) =
      runPlaces word pos (c :: rest) := by
    intro pos before
    have boundary : isBoundary (some c) = true := by simp [isBoundary, other]
    rw [findWordFrom, isPrefixOf_cons_of_other nonempty ident other, runPlaces_other other]
    exact finds.outside (pos + 1) (some c) boundary
  refine ⟨fun pos before _ => next pos before, ?_⟩
  intro pos before skip _ within
  rw [List.takeWhile_cons_of_neg (by simp [other])] at within ⊢
  rw [List.dropWhile_cons_of_neg (by simp [other])]
  obtain rfl := Nat.le_zero.mp within
  exact next pos before

/-- Behind the first character of a run the search comes to the end of the run. -/
theorem behind_ident (finds : FindsRuns word rest) (own : isIdentChar c = true) (pos : Nat)
    {skip : Nat} (short : skip ≤ (rest.takeWhile isIdentChar).length) :
    findWordFrom word (some c) (pos + 1) skip rest =
      runPlaces word (pos + (rest.takeWhile isIdentChar).length + 1)
        (rest.dropWhile isIdentChar) := by
  have within : isBoundary (some c) = false := by simp [isBoundary, own]
  rw [finds.inside (pos + 1) (some c) skip within short, Nat.add_right_comm]

theorem outside_cons_ident (finds : FindsRuns word rest)
    (ident : ∀ c ∈ word, isIdentChar c = true) (own : isIdentChar c = true) (pos : Nat)
    {before : Option Char} (boundary : isBoundary before = true) :
    findWordFrom word before pos 0 (c :: rest) = runPlaces word pos (c :: rest) := by
  rw [runPlaces_run own, ← List.takeWhile_cons_of_pos own, findWordFrom]
  by_cases starts : word.isPrefixOf (c :: rest) = true
  · have isStart := List.isPrefixOf_iff_prefix.mp starts
    have run := takeWhile_of_isPrefix ident isStart
    have short := length_sub_one_le_of_isPrefix ident own isStart
    rw [if_pos starts, finds.behind_ident own pos short, boundary, Bool.true_and, run]
    by_cases whole : isBoundary ((c :: rest).drop word.length).head? = true
    · have ends := (isBoundary_head?_iff _).mp whole
      rw [if_pos whole, ends, List.append_nil, if_pos rfl]
      rfl
    · have goesOn : ((c :: rest).drop word.length).takeWhile isIdentChar ≠ [] :=
        fun ends => whole ((isBoundary_head?_iff _).mpr ends)
      rw [if_neg whole, if_neg (by simpa using goesOn)]
      rfl
  · have different : (c :: rest).takeWhile isIdentChar ≠ word := by
      rintro rfl
      exact starts (List.isPrefixOf_iff_prefix.mpr (List.takeWhile_prefix _))
    rw [if_neg starts, finds.behind_ident own pos (Nat.zero_le _), if_neg different]
    rfl

theorem inside_cons_ident (finds : FindsRuns word rest)
    (ident : ∀ c ∈ word, isIdentChar c = true) (own : isIdentChar c = true) (pos : Nat)
    {before : Option Char} {skip : Nat} (notBoundary : isBoundary before = false)
    (enough : skip ≤ ((c :: rest).takeWhile isIdentChar).length) :
    findWordFrom word before pos skip (c :: rest) =
      runPlaces word (pos + ((c :: rest).takeWhile isIdentChar).length)
        ((c :: rest).dropWhile isIdentChar) := by
  rw [List.takeWhile_cons_of_pos own, List.length_cons] at enough ⊢
  rw [List.dropWhile_cons_of_pos own, ← Nat.add_assoc]
  cases skip with
  | succ skip =>
      rw [findWordFrom]
      exact finds.behind_ident own pos (Nat.le_of_succ_le_succ enough)
  | zero =>
      rw [findWordFrom]
      by_cases starts : word.isPrefixOf (c :: rest) = true
      · have short := length_sub_one_le_of_isPrefix ident own (List.isPrefixOf_iff_prefix.mp starts)
        rw [if_pos starts, notBoundary, Bool.false_and, if_neg Bool.false_ne_true]
        exact finds.behind_ident own pos short
      · rw [if_neg starts]
        exact finds.behind_ident own pos (Nat.zero_le _)

end FindsRuns

theorem findsRuns (nonempty : word ≠ []) (ident : ∀ c ∈ word, isIdentChar c = true)
    (cs : List Char) : FindsRuns word cs := by
  induction cs with
  | nil => exact findsRuns_nil word
  | cons c rest ih =>
      cases own : isIdentChar c with
      | false => exact ih.cons_other nonempty ident own
      | true =>
          exact ⟨fun pos before => ih.outside_cons_ident ident own pos,
            fun pos before skip => ih.inside_cons_ident ident own pos⟩

theorem findWord_eq_runPlaces (nonempty : word ≠ []) (ident : ∀ c ∈ word, isIdentChar c = true)
    (cs : List Char) : findWord cs word = runPlaces word 0 cs := by
  have some : word.isEmpty = false := List.isEmpty_eq_false_iff.mpr nonempty
  rw [findWord, some]
  exact (findsRuns nonempty ident cs).outside 0 none rfl

/-- A word that is found fits in behind what is still to pass. -/
theorem length_le_of_mem_findWordFrom {place pos skip : Nat} {before : Option Char} {cs : List Char}
    (found : place ∈ findWordFrom word before pos skip cs) :
    skip + word.length ≤ cs.length := by
  induction cs generalizing before pos skip with
  | nil =>
      rw [findWordFrom] at found
      cases found
  | cons c cs ih =>
      rw [List.length_cons]
      cases skip with
      | succ skip =>
          rw [findWordFrom] at found
          have fits := ih found
          omega
      | zero =>
          rw [findWordFrom] at found
          split at found
          case isTrue starts =>
            have fits := (List.isPrefixOf_iff_prefix.mp starts).length_le
            rw [List.length_cons] at fits
            omega
          case isFalse =>
            have fits := ih found
            omega

/-- A word is found as well if the text goes on with anything that does not touch it. -/
theorem mem_findWordFrom_append {rest : List Char} (apart : isBoundary rest.head? = true)
    {place pos skip : Nat} {before : Option Char} {cs : List Char}
    (found : place ∈ findWordFrom word before pos skip cs) :
    place ∈ findWordFrom word before pos skip (cs ++ rest) := by
  induction cs generalizing before pos skip with
  | nil =>
      rw [findWordFrom] at found
      cases found
  | cons c cs ih =>
      cases skip with
      | succ skip =>
          rw [findWordFrom] at found
          exact ih found
      | zero =>
          rw [findWordFrom] at found
          rw [List.cons_append, findWordFrom]
          by_cases starts : word.isPrefixOf (c :: cs) = true
          · have isStart := List.isPrefixOf_iff_prefix.mp starts
            have stillStarts : word.isPrefixOf (c :: (cs ++ rest)) = true :=
              List.isPrefixOf_iff_prefix.mpr (isStart.trans (List.prefix_append (c :: cs) rest))
            have behind : isBoundary ((c :: (cs ++ rest)).drop word.length).head? =
                isBoundary ((c :: cs).drop word.length).head? := by
              rw [← List.cons_append, List.drop_append_of_le_length isStart.length_le]
              cases (c :: cs).drop word.length with
              | nil => exact apart
              | cons next others => rfl
            rw [if_pos starts] at found
            rw [if_pos stillStarts, behind]
            split at found
            case isTrue whole =>
              rw [if_pos whole]
              rcases List.mem_cons.mp found with here | later
              · exact List.mem_cons.mpr (.inl here)
              · exact List.mem_cons_of_mem _ (ih later)
            case isFalse partly =>
              rw [if_neg partly]
              exact ih found
          · rw [if_neg starts] at found
            -- The word is too short to start here only with the help of what follows.
            have fits := length_le_of_mem_findWordFrom found
            have short : word.length ≤ (c :: cs).length := by
              rw [List.length_cons]
              omega
            have alsoNot : ¬ word.isPrefixOf (c :: (cs ++ rest)) = true := fun stillStarts =>
              starts (List.isPrefixOf_iff_prefix.mpr (List.prefix_of_prefix_length_le
                (List.isPrefixOf_iff_prefix.mp stillStarts) (List.prefix_append (c :: cs) rest)
                short))
            rw [if_neg alsoNot]
            exact ih found

/-- The character in front of a place, where `before` is in front of the text. -/
theorem getLast?_cons_or (c : Char) (front : List Char) (before : Option Char) :
    (c :: front).getLast?.or before = front.getLast?.or (some c) := by
  rw [List.getLast?_cons]
  cases front.getLast? <;> rfl

/-- Where a word is found it stands, and no identifier character touches it. -/
theorem exists_of_mem_findWordFrom {cs : List Char} {before : Option Char} {pos skip place : Nat}
    (found : place ∈ findWordFrom word before pos skip cs) :
    ∃ front back, cs = front ++ word ++ back ∧ place = pos + front.length ∧
      isBoundary (front.getLast?.or before) = true ∧ isBoundary back.head? = true := by
  induction cs generalizing before pos skip with
  | nil => cases found
  | cons c rest ih =>
      have behind {skip : Nat} (later : place ∈ findWordFrom word (some c) (pos + 1) skip rest) :
          ∃ front back, c :: rest = front ++ word ++ back ∧ place = pos + front.length ∧
            isBoundary (front.getLast?.or before) = true ∧ isBoundary back.head? = true := by
        obtain ⟨front, back, rfl, there, left, right⟩ := ih later
        refine ⟨c :: front, back, rfl, ?_, ?_, right⟩
        · rw [List.length_cons]
          omega
        · rwa [getLast?_cons_or]
      unfold findWordFrom at found
      cases skip with
      | succ skip => exact behind found
      | zero =>
          dsimp only at found
          split at found
          case isFalse => exact behind found
          case isTrue starts =>
            obtain ⟨back, whole⟩ := List.isPrefixOf_iff_prefix.mp starts
            split at found
            case isFalse => exact behind found
            case isTrue apart =>
              rcases List.mem_cons.mp found with here | later
              · rw [Bool.and_eq_true, ← whole, List.drop_left] at apart
                exact ⟨[], back, whole.symm, here, apart.1, apart.2⟩
              · exact behind later

/-- Whether a word stands at a place of a text with no identifier character on either side. -/
def IsWordAt (cs word : List Char) (place : Nat) : Prop :=
  ∃ front back, cs = front ++ word ++ back ∧ front.length = place ∧
    isBoundary front.getLast? = true ∧ isBoundary back.head? = true

theorem isWordAt_of_mem_findWord {cs : List Char} {place : Nat}
    (found : place ∈ findWord cs word) : word ≠ [] ∧ IsWordAt cs word place := by
  unfold findWord at found
  split at found
  case isTrue => cases found
  case isFalse nonempty =>
    obtain ⟨front, back, whole, there, left, right⟩ := exists_of_mem_findWordFrom found
    rw [Option.or_none] at left
    exact ⟨by simpa using nonempty, front, back, whole, by omega, left, right⟩

/-! ## Words that start again inside of themselves -/

/-- Whether a word starts again behind a character of it that is no identifier character. -/
def Restarts (word : List Char) : Prop :=
  ∃ front rest, word = front ++ rest ∧ front ≠ [] ∧ rest ≠ [] ∧
    isBoundary front.getLast? = true ∧ rest <+: word

theorem not_restarts_of_ident (ident : ∀ c ∈ word, isIdentChar c = true) : ¬ Restarts word := by
  rintro ⟨front, rest, rfl, some, -, left, -⟩
  have own := ident _ (List.mem_append_left rest (List.getLast_mem some))
  rw [List.getLast?_eq_some_getLast some] at left
  simp [isBoundary, own] at left

/-- An occurrence that begins in front of a whole word and reaches into it makes the word start
again. -/
theorem Restarts.of_isPrefix {front back : List Char} (some : front ≠ [])
    (left : isBoundary front.getLast? = true) (starts : word <+: front ++ (word ++ back))
    (reaches : front.length < word.length) : Restarts word := by
  obtain ⟨rest, cut⟩ : front <+: word :=
    List.prefix_of_prefix_length_le (List.prefix_append _ _) starts (Nat.le_of_lt reaches)
  have onward : rest <+: word ++ back := by
    rwa [← cut, List.append_assoc, List.prefix_append_right_inj, ← List.append_assoc, cut] at starts
  have size := congrArg List.length cut
  rw [List.length_append] at size
  refine ⟨front, rest, cut.symm, some, ?_, left, ?_⟩
  · rintro rfl
    rw [List.length_nil] at size
    omega
  · exact List.prefix_of_prefix_length_le onward (List.prefix_append word back) (by omega)

/-- A word that does not start again is found wherever it stands as a whole word: no occurrence in
front of it, of which the search passes the rest, reaches into it. -/
theorem mem_findWordFrom_of_not_restarts (nonempty : word ≠ []) (free : ¬ Restarts word)
    {back : List Char} (right : isBoundary back.head? = true) {front : List Char}
    {before : Option Char} {skip : Nat} (pos : Nat)
    (left : isBoundary (front.getLast?.or before) = true) (short : skip ≤ front.length) :
    pos + front.length ∈ findWordFrom word before pos skip (front ++ (word ++ back)) := by
  induction front generalizing before pos skip with
  | nil =>
      obtain rfl := Nat.le_zero.mp short
      obtain ⟨c, others, rfl⟩ := List.exists_cons_of_ne_nil nonempty
      have starts : (c :: others).isPrefixOf (c :: (others ++ back)) = true :=
        List.isPrefixOf_iff_prefix.mpr (List.prefix_append (c :: others) back)
      have behind : (c :: (others ++ back)).drop (c :: others).length = back :=
        List.drop_left
      have apart : isBoundary before = true := left
      rw [List.nil_append, List.cons_append, findWordFrom, if_pos starts, behind, apart, right]
      exact List.mem_cons_self
  | cons c front ih =>
      have place : pos + (c :: front).length = pos + 1 + front.length := by
        rw [List.length_cons]
        omega
      have leftBehind : isBoundary (front.getLast?.or (some c)) = true := by
        rwa [getLast?_cons_or] at left
      rw [place, List.cons_append]
      cases skip with
      | succ skip =>
          rw [findWordFrom]
          exact ih (pos + 1) leftBehind (Nat.le_of_succ_le_succ short)
      | zero =>
          rw [findWordFrom]
          by_cases starts : word.isPrefixOf (c :: (front ++ (word ++ back))) = true
          · have ends : word.length ≤ (c :: front).length := by
              refine Nat.le_of_not_lt fun reaches => free ?_
              refine .of_isPrefix (List.cons_ne_nil c front) ?_
                (List.isPrefixOf_iff_prefix.mp starts) reaches
              rw [List.getLast?_cons] at left ⊢
              exact left
            have rest : word.length - 1 ≤ front.length := by
              rw [List.length_cons] at ends
              omega
            have behind := ih (pos + 1) leftBehind rest
            rw [if_pos starts]
            split
            case isTrue => exact List.mem_cons_of_mem pos behind
            case isFalse => exact behind
          · rw [if_neg starts]
            exact ih (pos + 1) leftBehind (Nat.zero_le _)

theorem mem_findWord_iff (free : ¬ Restarts word) {cs : List Char} {place : Nat} :
    place ∈ findWord cs word ↔ word ≠ [] ∧ IsWordAt cs word place := by
  refine ⟨isWordAt_of_mem_findWord, ?_⟩
  rintro ⟨nonempty, front, back, rfl, rfl, left, right⟩
  have some : word.isEmpty = false := List.isEmpty_eq_false_iff.mpr nonempty
  have found : 0 + front.length ∈ findWordFrom word none 0 0 (front ++ (word ++ back)) :=
    mem_findWordFrom_of_not_restarts nonempty free right 0 (by rwa [Option.or_none]) (Nat.zero_le _)
  rw [findWord, some, List.append_assoc]
  rwa [Nat.zero_add] at found

/-- An identifier is found wherever it stands as a whole word. -/
theorem mem_findWord_of_isWordAt (nonempty : word ≠ [])
    (ident : ∀ c ∈ word, isIdentChar c = true) {cs : List Char} {place : Nat}
    (stands : IsWordAt cs word place) : place ∈ findWord cs word :=
  (mem_findWord_iff (not_restarts_of_ident ident)).mpr ⟨nonempty, stands⟩

end Chars

namespace Text

theorem containsWord_iff_exists_mem {s word : String} :
    containsWord s word = true ↔ ∃ place, place ∈ Chars.findWord s.toList word.toList := by
  rw [containsWord, Chars.containsWord, Bool.not_eq_true', List.isEmpty_eq_false_iff_exists_mem]

theorem containsWord_append {spelling word rest : String}
    (apart : Chars.isBoundary rest.toList.head? = true)
    (contains : containsWord spelling word = true) :
    containsWord (spelling ++ rest) word = true := by
  rw [containsWord_iff_exists_mem] at contains ⊢
  obtain ⟨place, found⟩ := contains
  refine ⟨place, ?_⟩
  rw [Chars.findWord] at found ⊢
  split at found
  case isTrue => cases found
  case isFalse nonempty =>
    rw [if_neg nonempty, String.toList_append]
    exact Chars.mem_findWordFrom_append apart found

/-- Whether a name is an ordinary identifier. -/
structure IsIdentifier (name : String) : Prop where
  nonempty : name ≠ ""
  plain : ∀ c ∈ name.toList, Chars.isIdentChar c = true
  letter : Chars.startsWithDigit name.toList = false

theorem isIdentifier_iff {name : String} :
    name ≠ "" ∧ name.toList.all Chars.isIdentChar = true ∧
      Chars.startsWithDigit name.toList = false ↔ IsIdentifier name :=
  ⟨fun ⟨nonempty, plain, letter⟩ => ⟨nonempty, List.all_eq_true.mp plain, letter⟩,
    fun ⟨nonempty, plain, letter⟩ => ⟨nonempty, List.all_eq_true.mpr plain, letter⟩⟩

instance (name : String) : Decidable (IsIdentifier name) :=
  decidable_of_iff _ isIdentifier_iff

/-- Whether a word stands in a text with no identifier character on either side. -/
def HasWord (s word : String) : Prop :=
  word ≠ "" ∧ ∃ front back, s.toList = front ++ word.toList ++ back ∧
    Chars.isBoundary front.getLast? = true ∧ Chars.isBoundary back.head? = true

theorem hasWord_iff {s word : String} :
    HasWord s word ↔ word.toList ≠ [] ∧ ∃ place, Chars.IsWordAt s.toList word.toList place := by
  have some : word ≠ "" ↔ word.toList ≠ [] := by simp
  rw [HasWord, some]
  refine and_congr_right fun _ => ?_
  constructor
  · rintro ⟨front, back, whole, left, right⟩
    exact ⟨front.length, front, back, whole, rfl, left, right⟩
  · rintro ⟨-, front, back, whole, -, left, right⟩
    exact ⟨front, back, whole, left, right⟩

theorem hasWord_of_containsWord {s word : String} (contains : containsWord s word = true) :
    HasWord s word := by
  obtain ⟨place, found⟩ := containsWord_iff_exists_mem.mp contains
  obtain ⟨nonempty, stands⟩ := Chars.isWordAt_of_mem_findWord found
  exact hasWord_iff.mpr ⟨nonempty, place, stands⟩

end Text

end Bindery
