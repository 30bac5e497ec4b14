import Bindery.Proofs.Text.WholeWord

/-!
# Searching for words

The search gives the byte offsets of a word in ascending order.  It goes on behind each occurrence
that it meets, also behind one that is no whole word: in `opencv::cv::cv` it passes over the second
`cv::cv` with the first one, which the identifier touches.  The words that are missed in some text
are those that start again inside of themselves, behind a character that is no identifier character,
and no others.  An identifier is never missed, so to search for it and to pick it from the
identifiers of the text come to the same.
-/

set_option autoImplicit false

namespace Bindery

namespace Chars

/-! ## Offsets -/

theorem byteOffset_eq (cs : List Char) (place : Nat) :
    byteOffset cs place = (String.ofList (cs.take place)).utf8ByteSize := by
  rw [byteOffset]
  induction cs.take place with
  | nil => simp
  | cons c rest ih => simp [ih]

theorem byteOffset_append (front rest : List Char) :
    byteOffset (front ++ rest) front.length = (String.ofList front).utf8ByteSize := by
  rw [byteOffset_eq, List.take_left]

theorem byteOffset_lt_byteOffset {cs : List Char} {place next : Nat} (behind : place < next)
    (inside : place < cs.length) : byteOffset cs place < byteOffset cs next := by
  have parts : cs.take next = cs.take place ++ (cs.take next).drop place := by
    have whole := List.take_append_drop place (cs.take next)
    rw [List.take_take, Nat.min_eq_left (Nat.le_of_lt behind)] at whole
    exact whole.symm
  have more : (cs.take next).drop place ≠ [] := by
    rw [Ne, List.drop_eq_nil_iff, List.length_take]
    omega
  have size : (String.ofList ((cs.take next).drop place)).utf8ByteSize ≠ 0 := by
    simpa using more
  rw [byteOffset_eq, byteOffset_eq, parts, String.ofList_append, String.utf8ByteSize_append]
  omega

variable {word : List Char}

theorem pairwise_findWordFrom (before : Option Char) (pos skip : Nat) (cs : List Char) :
    (findWordFrom word before pos skip cs).Pairwise (· < ·) := by
  induction cs generalizing before pos skip with
  | nil =>
      rw [findWordFrom]
      exact .nil
  | cons c rest ih =>
      cases skip with
      | succ skip =>
          rw [findWordFrom]
          exact ih (some c) (pos + 1) skip
      | zero =>
          rw [findWordFrom]
          split
          case isFalse => exact ih (some c) (pos + 1) 0
          case isTrue =>
            have later := ih (some c) (pos + 1) (word.length - 1)
            split
            case isFalse => exact later
            case isTrue =>
              refine .cons (fun place found => ?_) later
              obtain ⟨front, -, -, there, -⟩ := exists_of_mem_findWordFrom found
              omega

theorem pairwise_findWord (cs word : List Char) : (findWord cs word).Pairwise (· < ·) := by
  unfold findWord
  split
  case isTrue => exact .nil
  case isFalse => exact pairwise_findWordFrom none 0 0 cs

theorem lt_length_of_mem_findWord {cs : List Char} {place : Nat} (found : place ∈ findWord cs word) :
    place < cs.length := by
  obtain ⟨nonempty, front, back, rfl, rfl, -⟩ := isWordAt_of_mem_findWord found
  have size := List.length_pos_iff.mpr nonempty
  rw [List.length_append, List.length_append]
  omega

/-! ## Words that are missed -/

theorem restarts_iff_exists_lt : Restarts word ↔
    ∃ n < word.length, n ≠ 0 ∧ isBoundary (word.take n).getLast? = true ∧
      word.drop n <+: word := by
  constructor
  · rintro ⟨front, rest, rfl, some, more, left, starts⟩
    refine ⟨front.length, ?_, ?_, ?_, ?_⟩
    · rw [List.length_append]
      exact Nat.lt_add_of_pos_right (List.length_pos_iff.mpr more)
    · exact fun none => some (List.length_eq_zero_iff.mp none)
    · rwa [List.take_left]
    · rwa [List.drop_left]
  · rintro ⟨n, inside, some, left, starts⟩
    refine ⟨word.take n, word.drop n, (List.take_append_drop n word).symm, ?_, ?_, left, starts⟩
    · rw [Ne, List.take_eq_nil_iff, not_or]
      refine ⟨some, ?_⟩
      rintro rfl
      cases inside
    · rwa [Ne, List.drop_eq_nil_iff, Nat.not_le]

instance (word : List Char) : Decidable (Restarts word) :=
  decidable_of_iff _ restarts_iff_exists_lt.symm

theorem Restarts.ne_nil (restarts : Restarts word) : word ≠ [] := by
  obtain ⟨front, rest, rfl, some, -⟩ := restarts
  exact List.append_ne_nil_of_left_ne_nil some rest

theorem exists_ident_ne (c : Char) : ∃ d, isIdentChar d = true ∧ c ≠ d := by
  by_cases same : c = 'a'
  · exact ⟨'b', by decide, by rw [same]; decide⟩
  · exact ⟨'a', by decide, same⟩

/-- Behind an identifier character, a word up to where it starts again and the word itself: the
search takes the front for an occurrence, which is not whole, and what is left is too short. -/
theorem exists_missed_of_restarts (restarts : Restarts word) :
    ∃ cs place, IsWordAt cs word place ∧ findWord cs word = [] := by
  have nonempty : word.isEmpty = false := List.isEmpty_eq_false_iff.mpr restarts.ne_nil
  obtain ⟨front, rest, cut, some, more, left, starts⟩ := restarts
  obtain ⟨c, others, rfl⟩ := List.exists_cons_of_ne_nil some
  obtain ⟨d, own, differ⟩ := exists_ident_ne c
  have size := congrArg List.length cut
  rw [List.length_append, List.length_cons] at size
  have moreSize := List.length_pos_iff.mpr more
  refine ⟨d :: (c :: others ++ word), (d :: c :: others).length,
    ⟨d :: c :: others, [], by simp, rfl, ?_, rfl⟩, ?_⟩
  · rwa [List.getLast?_cons_cons]
  · have notHere : ¬ word.isPrefixOf (d :: (c :: others ++ word)) = true := by
      rw [List.isPrefixOf_iff_prefix, cut, List.cons_append, List.cons_prefix_cons]
      exact fun both => differ both.1
    have here : word.isPrefixOf (c :: (others ++ word)) = true := by
      have again := (List.prefix_append_right_inj (c :: others)).mpr starts
      rw [← cut] at again
      exact List.isPrefixOf_iff_prefix.mpr again
    have touched : isBoundary (Option.some d) = false := by simp [isBoundary, own]
    rw [findWord, nonempty, if_neg Bool.false_ne_true, findWordFrom, if_neg notHere,
      List.cons_append, findWordFrom, if_pos here, touched, Bool.false_and,
      if_neg Bool.false_ne_true]
    refine List.eq_nil_iff_forall_not_mem.mpr fun place found => ?_
    have fits := length_le_of_mem_findWordFrom found
    rw [List.length_append] at fits
    omega

/-! ## Identifiers -/

/-- A word that does not start with a digit is among the identifiers wherever it is a run. -/
theorem filter_identifiers (letter : startsWithDigit word = false) (cs : List Char) :
    (identifiers cs).filter (·.2 == word) = (runsFrom 0 cs).filter (·.2 == word) := by
  rw [identifiers, List.filter_filter]
  refine List.filter_congr fun entry _ => ?_
  cases same : entry.2 == word with
  | false => rfl
  | true => rw [eq_of_beq same, letter, Bool.not_false, Bool.and_self]

theorem map_filter_identifiers (nonempty : word ≠ []) (ident : ∀ c ∈ word, isIdentChar c = true)
    (letter : startsWithDigit word = false) (cs : List Char) :
    ((identifiers cs).filter (·.2 == word)).map (·.1) = findWord cs word := by
  rw [filter_identifiers letter, findWord_eq_runPlaces nonempty ident, runPlaces]

end Chars

namespace Text

/-- Whether a word stands at a byte of a text with no identifier character on either side. -/
def IsWordAtByte (s word : String) (offset : Nat) : Prop :=
  ∃ front back : String, s = front ++ word ++ back ∧ front.utf8ByteSize = offset ∧
    Chars.isBoundary front.toList.getLast? = true ∧ Chars.isBoundary back.toList.head? = true

theorem pairwise_findWord (s word : String) : (findWord s word).Pairwise (· < ·) := by
  rw [findWord, List.pairwise_map]
  refine (Chars.pairwise_findWord s.toList word.toList).imp_of_mem fun found _ behind => ?_
  exact Chars.byteOffset_lt_byteOffset behind (Chars.lt_length_of_mem_findWord found)

theorem isWordAtByte_iff {s word : String} {offset : Nat} :
    IsWordAtByte s word offset ↔
      ∃ place, Chars.IsWordAt s.toList word.toList place ∧
        Chars.byteOffset s.toList place = offset := by
  constructor
  · rintro ⟨front, back, rfl, rfl, left, right⟩
    refine ⟨front.toList.length, ⟨front.toList, back.toList, by simp, rfl, left, right⟩, ?_⟩
    rw [String.append_assoc, String.toList_append, Chars.byteOffset_append, String.ofList_toList]
  · rintro ⟨place, ⟨front, back, whole, rfl, left, right⟩, rfl⟩
    refine ⟨String.ofList front, String.ofList back, ?_, ?_, by simpa using left,
      by simpa using right⟩
    · rw [← String.toList_inj, whole]
      simp
    · rw [whole, List.append_assoc, Chars.byteOffset_append]

/-- A word that does not start again is found at each byte where it stands as a whole word. -/
theorem mem_findWord_iff {word : String} (free : ¬ Chars.Restarts word.toList) {s : String}
    {offset : Nat} :
    offset ∈ findWord s word ↔ word ≠ "" ∧ IsWordAtByte s word offset := by
  have some : word.toList ≠ [] ↔ word ≠ "" := by simp
  rw [findWord, List.mem_map, isWordAtByte_iff]
  simp only [Chars.mem_findWord_iff free, some, and_assoc, exists_and_left]

/-- A word that is found stands in the text as a whole word.  The search finds a word in every text
that has it as a whole word if and only if the word does not start again inside of itself, and then
it finds each byte at which the word stands. -/
theorem whole_words_are_found_iff (word : String) :
    (∀ s, containsWord s word = true → HasWord s word) ∧
      ((∀ s, HasWord s word → containsWord s word = true) ↔ ¬ Chars.Restarts word.toList) ∧
      (¬ Chars.Restarts word.toList → ∀ s offset,
        offset ∈ findWord s word ↔ word ≠ "" ∧ IsWordAtByte s word offset) := by
  refine ⟨fun s => hasWord_of_containsWord, ⟨fun complete restarts => ?_, fun free s has => ?_⟩,
    fun free s offset => mem_findWord_iff free⟩
  · obtain ⟨cs, place, stands, missed⟩ := Chars.exists_missed_of_restarts restarts
    have has : HasWord (String.ofList cs) word :=
      hasWord_iff.mpr ⟨restarts.ne_nil, place, by rwa [String.toList_ofList]⟩
    obtain ⟨other, found⟩ := containsWord_iff_exists_mem.mp (complete _ has)
    rw [String.toList_ofList, missed] at found
    cases found
  · obtain ⟨some, place, stands⟩ := hasWord_iff.mp has
    exact containsWord_iff_exists_mem.mpr ⟨place, (Chars.mem_findWord_iff free).mpr ⟨some, stands⟩⟩

example : ¬ Chars.Restarts "std::vector".toList := by decide

/-- The second `cv::cv` is a whole word, but the search has passed over it with the first one. -/
theorem restarted_word_is_missed :
    HasWord "opencv::cv::cv" "cv::cv" ∧ containsWord "opencv::cv::cv" "cv::cv" = false :=
  ⟨⟨by decide, "opencv::".toList, [], by decide, by decide, by decide⟩, by decide +kernel⟩

variable {word : String}

theorem map_filter_identifiers (identifier : IsIdentifier word) (s : String) :
    ((identifiers s).filter (·.2 == word)).map (·.1) = findWord s word := by
  have nonempty : word.toList ≠ [] := by simpa using identifier.nonempty
  have same (run : List Char) : (String.ofList run == word) = (run == word.toList) := by
    rw [Bool.eq_iff_iff, beq_iff_eq, beq_iff_eq, ← String.toList_inj, String.toList_ofList]
  rw [identifiers, List.filter_map, List.map_map, findWord,
    ← Chars.map_filter_identifiers nonempty identifier.plain identifier.letter, List.map_map]
  simp only [Function.comp_def, same]

/-- To search for an identifier gives the byte offsets that go with it among the identifiers of the
text, in ascending order, and these are the offsets at which it stands as a whole word. -/
theorem findWord_eq_offsets_of_identifiers (identifier : IsIdentifier word) (s : String) :
    findWord s word = ((identifiers s).filter (·.2 == word)).map (·.1) ∧
      (findWord s word).Pairwise (· < ·) ∧
      ∀ offset, offset ∈ findWord s word ↔ IsWordAtByte s word offset :=
  ⟨(map_filter_identifiers identifier s).symm, pairwise_findWord s word,
    fun _ => (mem_findWord_iff (Chars.not_restarts_of_ident identifier.plain)).trans
      (and_iff_right identifier.nonempty)⟩

/-- Letters beyond ASCII end an identifier, so that `Größe` holds `Gr` and `e`; a digit in front
does not. -/
theorem offsets_behind_wide_characters :
    IsIdentifier "e" ∧ findWord "Größe(e, 2e, e_, é→e)" "e" = [6, 8, 24] ∧
      ((identifiers "Größe(e, 2e, e_, é→e)").filter (·.2 == "e")).map (·.1) = [6, 8, 24] := by
  have identifier : IsIdentifier "e" := by decide
  obtain ⟨same, -, -⟩ := findWord_eq_offsets_of_identifiers identifier "Größe(e, 2e, e_, é→e)"
  have found : findWord "Größe(e, 2e, e_, é→e)" "e" = [6, 8, 24] := by decide +kernel
  exact ⟨identifier, found, same.symm.trans found⟩

end Text

end Bindery
