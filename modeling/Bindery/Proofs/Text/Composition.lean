import Bindery.Proofs.Text.Simultaneous

/-!
# Substitution twice

Two substitutions, one after the other, are one in which the second has been carried out in the
arguments of the first.  Words do not meet where an argument takes the place of a parameter, since
no identifier character stands next to it; but a colon at either end of an argument could make a
`::` with one that stands next to it, or be one that a later word follows.
-/

set_option autoImplicit false

namespace Bindery

namespace Chars

/-! ## Behind white space and solid characters -/

theorem endsInScope_blank_append {blanks : List Char} (blank : IsBlankText blanks)
    (cs : List Char) : endsInScope (blanks ++ cs) = endsInScope cs := by
  induction blanks with
  | nil => rfl
  | cons c blanks ih =>
      rw [List.cons_append, endsInScope_blank_cons (blank c List.mem_cons_self),
        ih fun d member => blank d (List.mem_cons_of_mem c member)]

theorem endsInScope_append_blank {c : Char} (blank : isBlank c = true) (cs : List Char) :
    endsInScope (cs ++ [c]) = endsInScope cs := by
  rw [endsInScope_eq, endsInScope_eq, List.reverse_append, List.reverse_singleton,
    List.singleton_append, List.dropWhile_cons_of_pos blank]

/-- The last character that shows is no colon. -/
def EndsSolid (cs : List Char) : Prop :=
  ∃ start c blanks, cs = start ++ c :: blanks ∧ isSolid c = true ∧ IsBlankText blanks

theorem EndsInName.endsSolid {cs : List Char} (ends : EndsInName cs) : EndsSolid cs := by
  obtain ⟨start, c, rfl, ident⟩ := ends
  exact ⟨start, c, [], rfl, isSolid_of_isIdentChar ident, List.forall_mem_nil _⟩

/-- What follows such a text alone decides about a `::` behind it. -/
theorem EndsSolid.endsInScope_append {cs : List Char} (ends : EndsSolid cs)
    (front later : List Char) : endsInScope (front ++ cs ++ later) = endsInScope later := by
  obtain ⟨start, c, blanks, rfl, solid, blank⟩ := ends
  have parts : front ++ (start ++ c :: blanks) ++ later =
      (front ++ start) ++ c :: (blanks ++ later) := by simp
  rw [parts, Chars.endsInScope_append solid, endsInScope_blank_append blank]

theorem EndsSolid.endAlike {left right : List Char} (first : EndsSolid left)
    (second : EndsSolid right) (front other : List Char) :
    EndAlike (front ++ left) (other ++ right) := fun later =>
  (first.endsInScope_append front later).trans (second.endsInScope_append other later).symm

theorem EndAlike.endsInScope_eq {left right : List Char} (alike : EndAlike left right) :
    endsInScope left = endsInScope right := by
  simpa using alike []

theorem EndAlike.isFree_eq {left right : List Char} (alike : EndAlike left right)
    (run : List Char) : isFree left run = isFree right run := by
  rw [isFree, isFree, alike.endsInScope_eq]

/-! ## Reading in parts -/

section

variable {meaning : List Char → Option (List Char)}

theorem startsApart_nil : StartsApart [] := by
  simp [StartsApart]

theorem startsApart_replaceWords {cs : List Char} (apart : StartsApart cs) (front : List Char) :
    StartsApart (replaceWords meaning front cs) := by
  rw [← rewriteRuns_wordRule]
  exact apart.rewriteRuns _ front

theorem replaceWords_append (front left : List Char) {right : List Char}
    (apart : StartsApart right) :
    replaceWords meaning front (left ++ right) =
      replaceWords meaning front left ++ replaceWords meaning (front ++ left) right := by
  fun_induction replaceWords meaning front left with
  | case1 front => simp
  | case2 front c rest ident run ih =>
      obtain ⟨taken, dropped⟩ := apart.takeWhile_append rest
      have whole : front ++ run ++ rest.dropWhile isIdentChar = front ++ c :: rest := by
        simp [run, List.takeWhile_append_dropWhile]
      rw [List.cons_append, replaceWords, if_pos ident, taken, dropped]
      change _ ++ replaceWords meaning (front ++ run) (rest.dropWhile isIdentChar ++ right) = _
      rw [ih, whole, List.append_assoc]
  | case3 front c rest other ih =>
      rw [List.cons_append, replaceWords, if_neg other, ih, List.append_assoc,
        List.singleton_append, List.cons_append]

theorem replaceWords_congr {left right : List Char} (alike : EndAlike left right)
    (cs : List Char) : replaceWords meaning left cs = replaceWords meaning right cs := by
  fun_induction replaceWords meaning left cs generalizing right with
  | case1 => rw [replaceWords]
  | case2 front c rest ident run =>
      rename_i ih
      have here : replacement? meaning front run = replacement? meaning right run := by
        rw [replacement?_eq, replacement?_eq, alike.isFree_eq]
      rw [replaceWords, if_pos ident, here, ih (alike.append run)]
  | case3 front c rest other ih =>
      rw [replaceWords, if_neg other, ih (alike.append [c])]

/-- A text whose first character that shows is no colon is read the same behind any two texts that
do not end in `::`. -/
theorem replaceWords_eq_of_outside {left right cs : List Char}
    (outsideLeft : endsInScope left = false) (outsideRight : endsInScope right = false)
    (solid : ∀ c ∈ (trimStart cs).head?, isSolid c = true) :
    replaceWords meaning left cs = replaceWords meaning right cs := by
  induction cs generalizing left right with
  | nil => rw [replaceWords, replaceWords]
  | cons c rest ih =>
      rw [replaceWords, replaceWords]
      by_cases ident : isIdentChar c = true
      · have run := endsInName_run ident rest
        have here : replacement? meaning left (c :: rest.takeWhile isIdentChar) =
            replacement? meaning right (c :: rest.takeWhile isIdentChar) := by
          rw [replacement?_eq, replacement?_eq, isFree, isFree, outsideLeft, outsideRight]
        simp only [if_pos ident, here, replaceWords_congr (run.endAlike run left right)]
      · rw [if_neg ident, if_neg ident]
        by_cases blank : isBlank c = true
        · have later : ∀ d ∈ (trimStart rest).head?, isSolid d = true := by
            rwa [trimStart, List.dropWhile_cons_of_pos blank] at solid
          rw [ih ((endsInScope_append_blank blank left).trans outsideLeft)
            ((endsInScope_append_blank blank right).trans outsideRight) later]
        · have shown : isSolid c = true := by
            rw [trimStart, List.dropWhile_cons_of_neg blank] at solid
            exact solid c rfl
          rw [replaceWords_congr (endAlike_of_solid shown left right)]

end

/-! ## Texts without a colon at either end -/

/-- A text in which something shows, and no colon does so first or last. -/
structure IsSealed (cs : List Char) : Prop where
  shown : trim cs ≠ []
  first : (trim cs).head? ≠ some ':'
  last : (trim cs).getLast? ≠ some ':'

instance (cs : List Char) : Decidable (IsSealed cs) :=
  decidable_of_iff
    (trim cs ≠ [] ∧ (trim cs).head? ≠ some ':' ∧ (trim cs).getLast? ≠ some ':')
    ⟨fun ⟨shown, first, last⟩ => ⟨shown, first, last⟩,
      fun isSealed => ⟨isSealed.shown, isSealed.first, isSealed.last⟩⟩

namespace IsSealed

variable {cs : List Char}

theorem startsSolid (isSealed : IsSealed cs) : ∀ c ∈ (trimStart cs).head?, isSolid c = true := by
  obtain ⟨⟨front, back, parts, blankFront, -⟩, first, -⟩ := isTrimOf_trim cs
  obtain ⟨c, core, isCore⟩ := List.exists_cons_of_ne_nil isSealed.shown
  have colon : c ≠ ':' := by simpa [isCore] using isSealed.first
  have visible : isBlank c = false := first c (by rw [isCore]; rfl)
  have start : trimStart cs = c :: core ++ back := by
    rw [trimStart, parts, isCore, List.append_assoc, List.dropWhile_append_of_pos blankFront,
      List.cons_append, List.dropWhile_cons_of_neg (by simp [visible])]
  intro d isFirst
  rw [start, List.cons_append, List.head?_cons, Option.mem_some_iff] at isFirst
  subst isFirst
  simp [isSolid, visible, colon]

theorem endsSolid (isSealed : IsSealed cs) : EndsSolid cs := by
  obtain ⟨⟨front, back, parts, -, blankBack⟩, -, last⟩ := isTrimOf_trim cs
  have isCore := List.dropLast_concat_getLast isSealed.shown
  have isLast := List.getLast?_eq_some_getLast isSealed.shown
  have colon : (trim cs).getLast isSealed.shown ≠ ':' := by
    simpa [isLast] using isSealed.last
  have visible := last _ isLast
  refine ⟨front ++ (trim cs).dropLast, (trim cs).getLast isSealed.shown, back, ?_, ?_, blankBack⟩
  · rw [List.append_cons, List.append_assoc front, isCore]
    exact parts
  · simp [isSolid, visible, colon]

end IsSealed

/-! ## Two substitutions -/

section

variable {inner outer whole : List Char → Option (List Char)}

/-- What is written for a run that stays, when the text is read again. -/
theorem IsRun.replaceWords_eq_self {run : List Char} (isRun : IsRun run []) {front : List Char}
    (own : replacement? outer front run = none) : replaceWords outer front run = run := by
  have read : replaceWords outer front (run ++ []) = _ := isRun.replaceWords_append front
  rwa [List.append_nil, own, Option.getD_none, replaceWords, List.append_nil] at read

/-- If each text that `inner` writes is sealed, and `whole` writes it with `outer` carried out in
it, then `whole` does at once what the two do one after the other. -/
theorem replaceWords_replaceWords
    (composed : ∀ word text, inner word = some text →
      IsSealed text ∧ whole word = some (replaceWords outer [] text))
    {front left cs : List Char} (alike : EndAlike left front)
    (kept : ∀ word ∈ freeNamesFrom front cs, inner word = none →
      outer word = none ∧ whole word = none) :
    replaceWords outer left (replaceWords inner front cs) = replaceWords whole front cs := by
  -- `left` is what stands before in the text between; it ends like what stands before in `cs`
  fun_induction replaceWords inner front cs generalizing left with
  | case1 front => rw [replaceWords, replaceWords]
  | case2 front c rest ident run =>
      rename_i ih
      have isRun : IsRun run (rest.dropWhile isIdentChar) := isRun_takeWhile ident rest
      have alone : IsRun run [] := ⟨isRun.nonempty, isRun.ident, startsApart_nil⟩
      have names : freeNamesFrom front (c :: rest) =
          (if isFree front run then [run] else []) ++
            freeNamesFrom (front ++ run) (rest.dropWhile isIdentChar) := by
        rw [freeNamesFrom, if_pos ident]
      have later := fun word (member : word ∈ freeNamesFrom (front ++ run) _) =>
        kept word (by rw [names]; exact List.mem_append_right _ member)
      have behind : StartsApart (replaceWords inner (front ++ run) _) :=
        startsApart_replaceWords isRun.whole (front ++ run)
      have right : replaceWords whole front (c :: rest) =
          (replacement? whole front run).getD run ++
            replaceWords whole (front ++ run) (rest.dropWhile isIdentChar) := by
        rw [replaceWords, if_pos ident]
      rw [replaceWords_append left _ behind, right]
      cases written : replacement? inner front run with
      | some text =>
          rw [replacement?_eq, Option.ite_none_right_eq_some] at written
          obtain ⟨isSealed, isWhole⟩ := composed run text written.2
          have outside : endsInScope left = false := by
            have free := written.1
            rw [isFree, Bool.and_eq_true, Bool.not_eq_true', Bool.not_eq_true'] at free
            exact alike.endsInScope_eq.trans free.2
          have nothing : endsInScope [] = false := rfl
          have seam : EndAlike (left ++ text) (front ++ run) :=
            isSealed.endsSolid.endAlike (endsInName_run ident rest).endsSolid left front
          rw [replacement?_eq, if_pos written.1, isWhole, Option.getD_some, Option.getD_some,
            replaceWords_eq_of_outside outside nothing isSealed.startsSolid, ih seam later]
      | none =>
          have stays : replacement? outer left run = none ∧ replacement? whole front run = none := by
            rw [replacement?_eq] at written ⊢
            rw [replacement?_eq, alike.isFree_eq]
            by_cases free : isFree front run = true
            · rw [if_pos free] at written
              have member : run ∈ freeNamesFrom front (c :: rest) := by
                rw [names, if_pos free]
                exact List.mem_append_left _ (List.mem_singleton_self run)
              rw [if_pos free, if_pos free]
              exact kept run member written
            · rw [if_neg free, if_neg free]
              exact ⟨rfl, rfl⟩
          rw [stays.2, Option.getD_none, alone.replaceWords_eq_self stays.1,
            ih (alike.append run) later]
  | case3 front c rest other ih =>
      have plain : isIdentChar c = false := by simpa using other
      rw [freeNamesFrom, if_neg other] at kept
      rw [replaceWords_plain plain, replaceWords_plain plain, ih (alike.append [c]) kept]

end

end Chars

namespace Text

open Chars

/-- A text in which something shows, and no colon does so first or last. -/
def IsSealed (s : String) : Prop :=
  Chars.IsSealed s.toList

instance (s : String) : Decidable (IsSealed s) :=
  inferInstanceAs (Decidable (Chars.IsSealed s.toList))

/-- No identifier of a text is a later parameter that is not a parameter here. -/
def NamesApart (s : String) (params later : List String) : Prop :=
  ∀ entry ∈ identifiers s, entry.2 ∉ params → entry.2 ∉ later

instance (s : String) (params later : List String) : Decidable (NamesApart s params later) :=
  inferInstanceAs (Decidable (∀ entry ∈ identifiers s, _ → _))

variable {params args later given : List String}

theorem lookup_zip_map (f : String → String) (word : String) :
    (params.zip (args.map f)).lookup word = ((params.zip args).lookup word).map f := by
  induction params generalizing args with
  | nil => rfl
  | cons param params ih =>
      cases args with
      | nil => rfl
      | cons arg args =>
          rw [List.map_cons, List.zip_cons_cons, List.zip_cons_cons, List.lookup_cons,
            List.lookup_cons, ih]
          cases word == param <;> rfl

theorem lookup_zip_eq_none {word : String} (absent : word ∉ params) :
    (params.zip args).lookup word = none := by
  refine Option.eq_none_iff_forall_ne_some.mpr fun arg found => ?_
  obtain ⟨i, named, -⟩ := lookup_zip_eq_some_iff.mp found
  exact absent (List.mem_of_getElem? named)

theorem lookup_zip_eq_none_iff (same : args.length = params.length) {word : String} :
    (params.zip args).lookup word = none ↔ word ∉ params := by
  refine ⟨fun missing member => ?_, lookup_zip_eq_none⟩
  have first : ((params.zip args).map Prod.fst) = params :=
    List.map_fst_zip (Nat.le_of_eq same.symm)
  rw [← first] at member
  obtain ⟨pair, isPair, named⟩ := List.mem_map.mp member
  have differs := List.lookup_eq_none_iff.mp missing pair isPair
  simp [named] at differs

/-- What is substituted in a text and then in the result can be substituted at once, if the later
arguments are first written into the earlier ones. -/
theorem substitute_substitute {s : String} (same : args.length = params.length)
    (isSealed : ∀ arg ∈ args, IsSealed arg) (apart : NamesApart s params later) :
    substitute (substitute s params args) later given =
      substitute s params (args.map fun arg => substitute arg later given) := by
  have whole (word : List Char) :
      meaningOf params (args.map fun arg => substitute arg later given) word =
        ((params.zip args).lookup (String.ofList word)).map fun arg =>
          Chars.replaceWords (meaningOf later given) [] arg.toList := by
    rw [meaningOf, lookup_zip_map, Option.map_map]
    exact congrArg (Option.map · _) (funext fun arg => toList_substitute arg later given)
  rw [← String.toList_inj, toList_substitute, toList_substitute, toList_substitute]
  refine replaceWords_replaceWords ?_ (fun _ => rfl) ?_
  · intro word text written
    obtain ⟨arg, found, rfl⟩ := Option.map_eq_some_iff.mp written
    obtain ⟨i, -, isArg, -⟩ := lookup_zip_eq_some_iff.mp found
    refine ⟨isSealed arg (List.mem_of_getElem? isArg), ?_⟩
    rw [whole, found, Option.map_some]
  · intro word member unwritten
    have missing := Option.map_eq_none_iff.mp unwritten
    have outside := (lookup_zip_eq_none_iff same).mp missing
    have isName : ∃ entry ∈ identifiers s, entry.2 = String.ofList word := by
      rw [← Chars.freeNames_eq, Chars.freeNames, List.mem_map] at member
      obtain ⟨entry, isEntry, rfl⟩ := member
      exact ⟨_, List.mem_map_of_mem (List.mem_filter.mp isEntry).1, rfl⟩
    obtain ⟨entry, isEntry, named⟩ := isName
    have foreign : String.ofList word ∉ later := by
      rw [← named] at outside ⊢
      exact apart entry isEntry outside
    constructor
    · rw [meaningOf, lookup_zip_eq_none foreign, Option.map_none]
    · rw [whole, missing, Option.map_none]

end Text

end Bindery
