import Bindery.Proofs.Text.Substitution
import Mathlib.Data.List.TakeWhile

/-!
# Free names

The free names of a text are its identifiers that no `::` precedes.  They are what a reader of the
text has to look up, and what a pass over its words can write out in full.  Pieces of text that are
put together behind a bracket or a comma keep their free names.
-/

set_option autoImplicit false

namespace Bindery

namespace Chars

/-- The identifiers of a text that no `::` precedes. -/
def freeNames (cs : List Char) : List (List Char) :=
  ((identifiers cs).filter fun entry => !precededByScope cs entry.1).map (·.2)

/-! ## Ends of texts -/

/-- Whether a text ends in `::`, white space aside. -/
def endsInScope (cs : List Char) : Bool :=
  endsWith [':', ':'] (trimEnd cs)

/-- A character that is neither white space nor a colon. -/
def isSolid (c : Char) : Bool :=
  !isBlank c && c != ':'

theorem isBlank_eq_false_of_isIdentChar {c : Char} (ident : isIdentChar c = true) :
    isBlank c = false := by
  have code : (48 ≤ c.toNat ∧ c.toNat ≤ 57) ∨ (65 ≤ c.toNat ∧ c.toNat ≤ 90) ∨
      c.toNat = 95 ∨ (97 ≤ c.toNat ∧ c.toNat ≤ 122) := by
    change (((c.isUpper || c.isLower) || c.isDigit) || c == '_') = true at ident
    rw [Bool.or_eq_true, Bool.or_eq_true, Bool.or_eq_true, beq_iff_eq] at ident
    rcases ident with ((upper | lower) | digit) | rfl
    · have range : c.val ≥ 'A'.val ∧ c.val ≤ 'Z'.val := of_decide_eq_true upper
      exact .inr (.inl ⟨UInt32.le_iff_toNat_le.mp range.1, UInt32.le_iff_toNat_le.mp range.2⟩)
    · have range := Bool.and_eq_true_iff.mp lower
      have first := UInt32.le_iff_toNat_le.mp (of_decide_eq_true range.1)
      have last := UInt32.le_iff_toNat_le.mp (of_decide_eq_true range.2)
      exact .inr (.inr (.inr ⟨first, last⟩))
    · have range := Bool.and_eq_true_iff.mp digit
      have first := UInt32.le_iff_toNat_le.mp (of_decide_eq_true range.1)
      have last := UInt32.le_iff_toNat_le.mp (of_decide_eq_true range.2)
      exact .inl ⟨first, last⟩
    · exact .inr (.inr (.inl rfl))
  simp only [isBlank, blankRanges, List.any_cons, List.any_nil, Bool.or_false,
    Bool.or_eq_false_iff, Bool.and_eq_false_iff, decide_eq_false_iff_not]
  omega

theorem isSolid_of_isIdentChar {c : Char} (ident : isIdentChar c = true) : isSolid c = true := by
  have colon : c ≠ ':' := by
    rintro rfl
    exact absurd ident (by decide)
  simp [isSolid, isBlank_eq_false_of_isIdentChar ident, colon]

theorem endsInScope_eq (cs : List Char) :
    endsInScope cs = [':', ':'].isPrefixOf (cs.reverse.dropWhile isBlank) := by
  simp [endsInScope, endsWith, trimEnd, List.isSuffixOf]

/-- What stands before a solid character does not matter for the end. -/
theorem endsInScope_append {c : Char} (solid : isSolid c = true) (front cs : List Char) :
    endsInScope (front ++ c :: cs) = endsInScope cs := by
  obtain ⟨shown, colon⟩ : isBlank c = false ∧ c ≠ ':' := by simpa [isSolid] using solid
  have reversed : (front ++ c :: cs).reverse = cs.reverse ++ c :: front.reverse := by simp
  have own : (c :: front.reverse).dropWhile isBlank = c :: front.reverse :=
    List.dropWhile_cons_of_neg (by simp [shown])
  rw [endsInScope_eq, endsInScope_eq, reversed, List.dropWhile_append, own]
  rcases cs.reverse.dropWhile isBlank with _ | ⟨d, _ | ⟨e, rest⟩⟩
  · simp [List.isPrefixOf, Ne.symm colon]
  · simp [List.isPrefixOf, Ne.symm colon]
  · simp [List.isPrefixOf]

theorem endsInScope_blank_cons {c : Char} (blank : isBlank c = true) (cs : List Char) :
    endsInScope (c :: cs) = endsInScope cs := by
  have colon : c ≠ ':' := by
    rintro rfl
    exact absurd blank (by decide)
  have own : [c].dropWhile isBlank = [] := List.dropWhile_cons_of_pos blank
  rw [endsInScope_eq, endsInScope_eq, List.reverse_cons, List.dropWhile_append, own]
  rcases cs.reverse.dropWhile isBlank with _ | ⟨d, _ | ⟨e, rest⟩⟩
  · simp
  · simp [List.isPrefixOf, Ne.symm colon]
  · simp [List.isPrefixOf]

/-- Two texts that end in `::` alike, whatever follows them. -/
def EndAlike (left right : List Char) : Prop :=
  ∀ cs, endsInScope (left ++ cs) = endsInScope (right ++ cs)

theorem EndAlike.append {left right : List Char} (alike : EndAlike left right)
    (cs : List Char) : EndAlike (left ++ cs) (right ++ cs) := by
  intro later
  rw [List.append_assoc, List.append_assoc]
  exact alike (cs ++ later)

theorem endAlike_of_solid {c : Char} (solid : isSolid c = true) (left right : List Char) :
    EndAlike (left ++ [c]) (right ++ [c]) := by
  intro cs
  rw [List.append_assoc, List.append_assoc, List.singleton_append,
    endsInScope_append solid, endsInScope_append solid]

/-- The last character belongs to an identifier. -/
def EndsInName (cs : List Char) : Prop :=
  ∃ start c, cs = start ++ [c] ∧ isIdentChar c = true

theorem EndsInName.of_forall {cs : List Char} (nonempty : cs ≠ [])
    (ident : ∀ c ∈ cs, isIdentChar c = true) : EndsInName cs := by
  have parts := (List.dropLast_concat_getLast nonempty).symm
  exact ⟨cs.dropLast, cs.getLast nonempty, parts, ident _ (List.getLast_mem nonempty)⟩

theorem EndsInName.endAlike {left right : List Char} (first : EndsInName left)
    (second : EndsInName right) (front other : List Char) :
    EndAlike (front ++ left) (other ++ right) := by
  obtain ⟨start, c, rfl, ident⟩ := first
  obtain ⟨begin, d, rfl, idents⟩ := second
  intro cs
  have leftEnd := endsInScope_append (isSolid_of_isIdentChar ident) (front ++ start) cs
  have rightEnd := endsInScope_append (isSolid_of_isIdentChar idents) (other ++ begin) cs
  simpa using leftEnd.trans rightEnd.symm

/-! ## Reading once -/

/-- Whether a run of identifier characters behind `front` is a free name. -/
def isFree (front run : List Char) : Bool :=
  !startsWithDigit run && !endsInScope front

/-- The free names of a text that stands behind `front`. -/
def freeNamesFrom (front : List Char) : List Char → List (List Char)
  | [] => []
  | c :: rest =>
      if isIdentChar c then
        let run := c :: rest.takeWhile isIdentChar
        (if isFree front run then [run] else []) ++
          freeNamesFrom (front ++ run) (rest.dropWhile isIdentChar)
      else
        freeNamesFrom (front ++ [c]) rest
termination_by cs => cs.length
decreasing_by
  · have := (List.dropWhile_suffix (l := rest) isIdentChar).length_le
    simp only [List.length_cons]
    omega
  · simp

theorem freeNamesFrom_eq (front cs : List Char) :
    freeNamesFrom front cs =
      (((runsFrom front.length cs).filter fun entry => !startsWithDigit entry.2).filter
        fun entry => !precededByScope (front ++ cs) entry.1).map (·.2) := by
  fun_induction freeNamesFrom front cs with
  | case1 front => simp [runsFrom]
  | case2 front c rest ident run ih =>
      have cut : front ++ c :: rest = front ++ run ++ rest.dropWhile isIdentChar := by
        simp [run, List.takeWhile_append_dropWhile]
      have runs : runsFrom front.length (c :: rest) =
          (front.length, run) ::
            runsFrom (front ++ run).length (rest.dropWhile isIdentChar) := by
        rw [runsFrom, if_pos ident, List.length_append]
      have before : precededByScope (front ++ c :: rest) front.length = endsInScope front := by
        rw [precededByScope, List.take_left]
        rfl
      rw [runs, ih, ← cut, List.filter_cons]
      cases digit : startsWithDigit run with
      | true => simp [isFree, digit]
      | false => cases inScope : endsInScope front <;> simp [isFree, digit, inScope, before]
  | case3 front c rest other ih =>
      have runs : runsFrom front.length (c :: rest) = runsFrom (front ++ [c]).length rest := by
        rw [runsFrom, if_neg other, List.length_append, List.length_singleton]
      rw [runs, ih, List.append_assoc, List.singleton_append]

theorem freeNames_eq (cs : List Char) : freeNames cs = freeNamesFrom [] cs :=
  (freeNamesFrom_eq [] cs).symm

theorem freeNamesFrom_congr {left right : List Char} (alike : EndAlike left right)
    (cs : List Char) : freeNamesFrom left cs = freeNamesFrom right cs := by
  fun_induction freeNamesFrom left cs generalizing right with
  | case1 => rw [freeNamesFrom]
  | case2 front c rest ident run =>
      rename_i ih
      have here : isFree front run = isFree right run := by
        have same := alike []
        rw [List.append_nil, List.append_nil] at same
        rw [isFree, isFree, same]
      rw [freeNamesFrom, if_pos ident, ih (alike.append run), here]
  | case3 front c rest other ih =>
      rw [freeNamesFrom, if_neg other, ih (alike.append [c])]

/-- Whether a text does not go on with an identifier that ends before it. -/
def StartsApart (cs : List Char) : Prop :=
  ∀ c ∈ cs.head?, isIdentChar c = false

theorem StartsApart.takeWhile_append {right : List Char} (apart : StartsApart right)
    (left : List Char) :
    (left ++ right).takeWhile isIdentChar = left.takeWhile isIdentChar ∧
      (left ++ right).dropWhile isIdentChar = left.dropWhile isIdentChar ++ right := by
  induction left with
  | nil =>
      cases right with
      | nil => exact ⟨rfl, rfl⟩
      | cons c rest =>
          have other := apart c rfl
          simp [other]
  | cons c left ih =>
      cases ident : isIdentChar c with
      | true => simp [ident, ih]
      | false => simp [ident]

/-- A text can be read in two parts if no identifier is cut. -/
theorem freeNamesFrom_append (front left : List Char) {right : List Char}
    (apart : StartsApart right) :
    freeNamesFrom front (left ++ right) =
      freeNamesFrom front left ++ freeNamesFrom (front ++ left) right := by
  fun_induction freeNamesFrom front left with
  | case1 front => simp
  | case2 front c rest ident run ih =>
      obtain ⟨taken, dropped⟩ := apart.takeWhile_append rest
      have whole : front ++ run ++ rest.dropWhile isIdentChar = front ++ c :: rest := by
        simp [run, List.takeWhile_append_dropWhile]
      rw [List.cons_append, freeNamesFrom, if_pos ident, taken, dropped]
      change _ ++ freeNamesFrom (front ++ run) (rest.dropWhile isIdentChar ++ right) = _
      rw [ih, whole, List.append_assoc]
  | case3 front c rest other ih =>
      rw [List.cons_append, freeNamesFrom, if_neg other, ih, List.append_assoc,
        List.singleton_append]

/-- A text that starts with a solid character is read the same behind any text that does not end
in `::`. -/
theorem freeNamesFrom_eq_freeNames {front cs : List Char} (outside : endsInScope front = false)
    (solid : ∀ c ∈ cs.head?, isSolid c = true) : freeNamesFrom front cs = freeNames cs := by
  rw [freeNames_eq]
  cases cs with
  | nil => rw [freeNamesFrom, freeNamesFrom]
  | cons c rest =>
      rw [freeNamesFrom, freeNamesFrom]
      have nothing : endsInScope [] = false := rfl
      split
      case isTrue ident =>
        have run : EndsInName (c :: rest.takeWhile isIdentChar) := by
          refine .of_forall (List.cons_ne_nil _ _) fun d member => ?_
          rcases List.mem_cons.mp member with rfl | later
          · exact ident
          · exact List.mem_takeWhile_imp later
        have here : isFree front (c :: rest.takeWhile isIdentChar) =
            isFree [] (c :: rest.takeWhile isIdentChar) := by
          rw [isFree, isFree, outside, nothing]
        simp only [here, freeNamesFrom_congr (run.endAlike run front [])]
      case isFalse =>
        exact freeNamesFrom_congr (endAlike_of_solid (solid c rfl) front []) rest

/-! ## Pieces of text -/

/-- A solid character that belongs to no identifier. -/
def isSeparator (c : Char) : Bool :=
  isSolid c && !isIdentChar c

theorem freeNames_append_cons {c : Char} (separator : isSeparator c = true)
    (left right : List Char) :
    freeNames (left ++ c :: right) = freeNames left ++ freeNames right := by
  obtain ⟨solid, other⟩ : isSolid c = true ∧ isIdentChar c = false := by
    simpa [isSeparator] using separator
  have apart : StartsApart (c :: right) := by
    intro d head
    cases head
    exact other
  have behind : freeNamesFrom left (c :: right) = freeNamesFrom [] right := by
    rw [freeNamesFrom, if_neg (by simp [other])]
    refine freeNamesFrom_congr (fun cs => ?_) right
    rw [List.append_assoc, List.singleton_append, endsInScope_append solid, List.nil_append]
  rw [freeNames_eq, freeNames_eq, freeNames_eq, freeNamesFrom_append [] left apart,
    List.nil_append, behind]

theorem freeNames_blank_cons {c : Char} (blank : isBlank c = true) (cs : List Char) :
    freeNames (c :: cs) = freeNames cs := by
  have other : isIdentChar c = false := by
    refine Bool.eq_false_iff.mpr fun ident => ?_
    rw [isBlank_eq_false_of_isIdentChar ident] at blank
    cases blank
  have alike : EndAlike [c] [] := fun later => endsInScope_blank_cons blank later
  rw [freeNames_eq, freeNames_eq, freeNamesFrom, if_neg (by simp [other]), List.nil_append,
    freeNamesFrom_congr alike]

theorem freeNamesFrom_of_nameless (front : List Char) {cs : List Char}
    (nameless : ∀ c ∈ cs, isIdentChar c = false) : freeNamesFrom front cs = [] := by
  induction cs generalizing front with
  | nil => rw [freeNamesFrom]
  | cons c rest ih =>
      have other := nameless c List.mem_cons_self
      rw [freeNamesFrom, if_neg (by simp [other]), ih _ fun d member =>
        nameless d (List.mem_cons_of_mem _ member)]

theorem freeNames_append_of_nameless (left : List Char) {right : List Char}
    (nameless : ∀ c ∈ right, isIdentChar c = false) : freeNames (left ++ right) = freeNames left := by
  have apart : StartsApart right := fun c first => nameless c (List.mem_of_mem_head? first)
  rw [freeNames_eq, freeNames_eq, freeNamesFrom_append [] left apart,
    freeNamesFrom_of_nameless _ nameless, List.append_nil]

theorem freeNames_of_nameless {cs : List Char} (nameless : ∀ c ∈ cs, isIdentChar c = false) :
    freeNames cs = [] := by
  rw [freeNames_eq, freeNamesFrom_of_nameless _ nameless]

theorem freeNames_word {word : List Char} (nonempty : word ≠ [])
    (ident : ∀ d ∈ word, isIdentChar d = true) (letter : startsWithDigit word = false) :
    freeNames word = [word] := by
  obtain ⟨d, rest, rfl⟩ := List.exists_cons_of_ne_nil nonempty
  have whole := fun e member => ident e (List.mem_cons_of_mem d member)
  have taken := List.takeWhile_eq_self_iff.mpr whole
  have dropped : rest.dropWhile isIdentChar = [] := List.dropWhile_eq_nil_iff.mpr whole
  have free : isFree [] (d :: rest) = true := by simp [isFree, letter, endsInScope_eq]
  rw [freeNames_eq, freeNamesFrom, if_pos (ident d List.mem_cons_self), taken, dropped]
  simp [free, freeNamesFrom]

/-- A word and a blank in front of a text add one name. -/
theorem freeNames_word_blank {word : List Char} {c : Char} (nonempty : word ≠ [])
    (ident : ∀ d ∈ word, isIdentChar d = true) (letter : startsWithDigit word = false)
    (blank : isBlank c = true) (cs : List Char) :
    freeNames (word ++ c :: cs) = word :: freeNames cs := by
  have other : isIdentChar c = false := by
    refine Bool.eq_false_iff.mpr fun own => ?_
    rw [isBlank_eq_false_of_isIdentChar own] at blank
    cases blank
  have apart : StartsApart (c :: cs) := by
    intro d head
    cases head
    exact other
  have alike : EndAlike (word ++ [c]) [] := by
    obtain ⟨start, d, rfl, own⟩ := EndsInName.of_forall nonempty ident
    intro later
    have solid := isSolid_of_isIdentChar own
    rw [List.append_assoc, List.append_assoc, List.singleton_append, List.singleton_append,
      endsInScope_append solid, List.nil_append]
    exact endsInScope_blank_cons blank later
  rw [freeNames_eq, freeNamesFrom_append [] word apart, ← freeNames_eq word,
    freeNames_word nonempty ident letter, freeNamesFrom, if_neg (by simp [other]), List.nil_append,
    freeNamesFrom_congr alike, ← freeNames_eq]
  rfl

theorem freeNames_intercalate (pieces : List (List Char)) :
    freeNames ([',', ' '].intercalate pieces) = pieces.flatMap freeNames := by
  induction pieces with
  | nil => simp [freeNames_eq, freeNamesFrom]
  | cons first others ih =>
      cases others with
      | nil => simp
      | cons second others =>
          have comma : isSeparator ',' = true := by decide
          have space : isBlank ' ' = true := by decide
          rw [List.intercalate_cons_cons, List.append_assoc, List.cons_append,
            freeNames_append_cons comma, List.singleton_append, freeNames_blank_cons space, ih]
          rfl

end Chars

namespace Text

/-- The identifiers of a text that no `::` precedes. -/
def freeNames (s : String) : List String :=
  (Chars.freeNames s.toList).map String.ofList

theorem freeNames_append {c : Char} (separator : Chars.isSeparator c = true)
    (left right : String) :
    freeNames (left ++ String.singleton c ++ right) = freeNames left ++ freeNames right := by
  have parts : (left ++ String.singleton c ++ right).toList = left.toList ++ c :: right.toList := by
    simp
  rw [freeNames, parts, Chars.freeNames_append_cons separator, List.map_append]
  rfl

theorem freeNames_brackets (base args rest : String) :
    freeNames (base ++ "<" ++ args ++ ">" ++ rest) =
      freeNames base ++ freeNames args ++ freeNames rest := by
  have opening := freeNames_append (c := '<') (by decide) base args
  have closing := freeNames_append (c := '>') (by decide) (base ++ "<" ++ args) rest
  exact closing.trans (congrArg (· ++ freeNames rest) opening)

theorem freeNames_joinArgs (args : List String) :
    freeNames (joinArgs args) = args.flatMap freeNames := by
  have joined : (joinArgs args).toList = [',', ' '].intercalate (args.map String.toList) :=
    String.toList_intercalate
  rw [freeNames, joined, Chars.freeNames_intercalate, List.flatMap_map, List.map_flatMap]
  rfl

theorem freeNames_append_of_nameless (left : String) {right : String}
    (nameless : right.toList.any Chars.isIdentChar = false) :
    freeNames (left ++ right) = freeNames left := by
  have each : ∀ c ∈ right.toList, Chars.isIdentChar c = false := by simpa using nameless
  rw [freeNames, String.toList_append, Chars.freeNames_append_of_nameless _ each]
  rfl

theorem freeNames_of_nameless {s : String} (nameless : s.toList.any Chars.isIdentChar = false) :
    freeNames s = [] := by
  have each : ∀ c ∈ s.toList, Chars.isIdentChar c = false := by simpa using nameless
  rw [freeNames, Chars.freeNames_of_nameless each, List.map_nil]

theorem freeNames_word {s : String} (nonempty : s.toList ≠ [])
    (ident : s.toList.all Chars.isIdentChar = true)
    (letter : Chars.startsWithDigit s.toList = false) : freeNames s = [s] := by
  rw [freeNames, Chars.freeNames_word nonempty (List.all_eq_true.mp ident) letter,
    List.map_singleton, String.ofList_toList]

theorem freeNames_const_append (s : String) :
    freeNames ("const " ++ s) = "const" :: freeNames s := by
  have names : Chars.freeNames ("const".toList ++ ' ' :: s.toList) =
      "const".toList :: Chars.freeNames s.toList :=
    Chars.freeNames_word_blank (by decide) (List.all_eq_true.mp (by decide)) (by decide)
      (by decide) s.toList
  have parts : ("const " ++ s).toList = "const".toList ++ ' ' :: s.toList := by simp
  rw [freeNames, parts, names, List.map_cons, String.ofList_toList]
  rfl

theorem freeNames_append_const {c : Char} (separator : Chars.isSeparator c = true) (s : String) :
    freeNames (s ++ String.singleton c ++ " const") = freeNames s ++ ["const"] := by
  have space : Chars.isBlank ' ' = true := by decide
  have last : freeNames " const" = freeNames "const" :=
    congrArg (List.map String.ofList) (Chars.freeNames_blank_cons space "const".toList)
  have word : freeNames "const" = ["const"] := freeNames_word (by decide) (by decide) (by decide)
  rw [freeNames_append separator, last, word]

/-- Numbers are no names. -/
theorem freeNames_toString (n : Nat) : freeNames (toString n) = [] := by
  have digits : ∀ c ∈ Nat.toDigits 10 n, c.isDigit = true := fun c member =>
    Nat.isDigit_of_mem_toDigits (by decide) (by decide) member
  have ident : ∀ c ∈ Nat.toDigits 10 n, Chars.isIdentChar c = true := by
    intro c member
    simp [Chars.isIdentChar, Char.isAlphanum, digits c member]
  obtain ⟨c, rest, shape⟩ := List.exists_cons_of_ne_nil (Nat.toDigits_ne_nil (n := n) (b := 10))
  rw [shape] at digits ident
  have whole := fun d member => ident d (List.mem_cons_of_mem c member)
  have taken := List.takeWhile_eq_self_iff.mpr whole
  have dropped : rest.dropWhile Chars.isIdentChar = [] := List.dropWhile_eq_nil_iff.mpr whole
  have bound : Chars.isFree [] (c :: rest) = false := by
    simp [Chars.isFree, Chars.startsWithDigit, digits c List.mem_cons_self]
  rw [freeNames, Nat.toString_eq_ofList_toDigits, String.toList_ofList, shape, Chars.freeNames_eq,
    Chars.freeNamesFrom, if_pos (ident c List.mem_cons_self), taken, dropped]
  simp [bound, Chars.freeNamesFrom]

end Text

end Bindery
