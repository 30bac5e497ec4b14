import Bindery.Name.Method
import Bindery.Proofs.Text.Trimming
import Mathlib.Data.List.Basic

/-!
# Characters of conventional names

The conventions for names change the case of letters, leave characters out, and write underscores in
between; a setter and a predicate get a mark of their own.  So no other character comes into a name
that the C++ name does not have.
-/

set_option autoImplicit false

namespace Bindery

namespace Chars

/-! ## Letters -/

theorem isUpper_upper {c : Char} (letter : c.isLower = true) : (upper c).isUpper = true := by
  have capitals : ∀ offset : Fin 26, (Char.ofNat (65 + offset)).isUpper = true := by decide
  obtain ⟨low, high⟩ : 'a'.val ≤ c.val ∧ c.val ≤ 'z'.val := by
    change (decide _ && decide _) = true at letter
    simpa using letter
  have low : 97 ≤ c.toNat := UInt32.le_iff_toNat_le.mp low
  have high : c.toNat ≤ 122 := UInt32.le_iff_toNat_le.mp high
  have shifted : 65 + (c.toNat - 97) = c.toNat - 32 := by omega
  rw [upper, if_pos letter]
  exact shifted ▸ capitals ⟨c.toNat - 97, by omega⟩

theorem isLower_lower {c : Char} (letter : c.isUpper = true) : (lower c).isLower = true := by
  have smalls : ∀ offset : Fin 26, (Char.ofNat (97 + offset)).isLower = true := by decide
  obtain ⟨low, high⟩ : 'A'.val ≤ c.val ∧ c.val ≤ 'Z'.val := of_decide_eq_true letter
  have low : 65 ≤ c.toNat := UInt32.le_iff_toNat_le.mp low
  have high : c.toNat ≤ 90 := UInt32.le_iff_toNat_le.mp high
  have shifted : 97 + (c.toNat - 65) = c.toNat + 32 := by omega
  rw [lower, if_pos letter]
  exact shifted ▸ smalls ⟨c.toNat - 65, by omega⟩

variable {c d : Char} {cs : List Char}

theorem upper_ne (noCapital : d.isUpper = false) (other : c ≠ d) : upper c ≠ d := by
  cases letter : c.isLower with
  | true =>
      rintro rfl
      rw [isUpper_upper letter] at noCapital
      cases noCapital
  | false => rwa [upper, letter, if_neg Bool.false_ne_true]

theorem lower_ne (noSmall : d.isLower = false) (other : c ≠ d) : lower c ≠ d := by
  cases letter : c.isUpper with
  | true =>
      rintro rfl
      rw [isLower_lower letter] at noSmall
      cases noSmall
  | false => rwa [lower, letter, if_neg Bool.false_ne_true]

/-! ## Names -/

theorem of_mem_splitOnP {p : Char → Bool} {word : List Char} (member : word ∈ cs.splitOnP p) :
    ∀ c ∈ word, c ∈ cs ∧ p c = false := by
  induction cs generalizing word with
  | nil =>
      obtain rfl := List.mem_singleton.mp member
      exact fun c inWord => absurd inWord List.not_mem_nil
  | cons d cs ih =>
      rw [List.splitOnP_cons_eq_if_modifyHead] at member
      split at member
      · rcases List.mem_cons.mp member with rfl | later
        · exact fun c inWord => absurd inWord List.not_mem_nil
        · exact fun c inWord => (ih later c inWord).imp_left (List.mem_cons_of_mem d)
      · rename_i inner
        cases words : cs.splitOnP p with
        | nil => exact absurd words (List.splitOnP_ne_nil _ _)
        | cons first later =>
            rw [words] at member ih
            rcases List.mem_cons.mp member with rfl | behind
            · intro c inWord
              rcases List.mem_cons.mp inWord with rfl | inFirst
              · exact ⟨List.mem_cons_self, Bool.eq_false_iff.mpr inner⟩
              · exact (ih List.mem_cons_self c inFirst).imp_left (List.mem_cons_of_mem d)
            · exact fun c inWord =>
                (ih (List.mem_cons_of_mem _ behind) c inWord).imp_left (List.mem_cons_of_mem d)

section

variable {P : Char → Prop} (raises : ∀ c, P c → P (upper c))
include raises

theorem forall_mem_capitalize (each : ∀ c ∈ cs, P c) : ∀ c ∈ capitalize cs, P c := by
  cases cs with
  | nil => exact each
  | cons c rest =>
      obtain ⟨first, others⟩ := List.forall_mem_cons.mp each
      exact List.forall_mem_cons.mpr ⟨raises c first, others⟩

theorem forall_mem_camelCase (each : ∀ c ∈ cs, P c) : ∀ c ∈ camelCase cs, P c := by
  intro c member
  obtain ⟨word, isWord, inWord⟩ := List.mem_flatMap.mp member
  refine forall_mem_capitalize raises (fun d stands => ?_) c inWord
  exact each d (of_mem_splitOnP (List.mem_filter.mp isWord).1 d stands).1

theorem forall_mem_constantName (each : ∀ c ∈ cs, P c) : ∀ c ∈ constantName cs, P c := by
  unfold constantName
  split
  case h_1 => exact each
  case h_2 =>
    exact forall_mem_capitalize raises fun c member =>
      each c ((List.dropWhile_suffix _).subset member)

end

theorem not_mem_capitalize (noCapital : d.isUpper = false) (clear : d ∉ cs) :
    d ∉ capitalize cs := fun member =>
  forall_mem_capitalize (P := (· ≠ d)) (fun _ => upper_ne noCapital)
    (fun _ stands same => clear (same ▸ stands)) d member rfl

theorem not_mem_camelCase (noCapital : d.isUpper = false) (clear : d ∉ cs) :
    d ∉ camelCase cs := fun member =>
  forall_mem_camelCase (P := (· ≠ d)) (fun _ => upper_ne noCapital)
    (fun _ stands same => clear (same ▸ stands)) d member rfl

/-- Camel case has no gaps between words. -/
theorem not_mem_camelCase_of_gap (noCapital : d.isUpper = false) (gap : isWordGap d = true) :
    d ∉ camelCase cs := by
  intro member
  obtain ⟨word, isWord, inWord⟩ := List.mem_flatMap.mp member
  refine not_mem_capitalize noCapital (fun stands => ?_) inWord
  have inner := (of_mem_splitOnP (List.mem_filter.mp isWord).1 d stands).2
  rw [gap] at inner
  cases inner

theorem not_mem_snakeCaseFrom (noSmall : d.isLower = false) (noGap : d ≠ '_')
    {before : Option Char} (clear : d ∉ cs) : d ∉ snakeCaseFrom before cs := by
  induction cs generalizing before with
  | nil => exact clear
  | cons c rest ih =>
      obtain ⟨other, later⟩ := not_or.mp (mt List.mem_cons.mpr clear)
      have behind : d ∉ lower c :: snakeCaseFrom (some c) rest := by
        intro member
        rcases List.mem_cons.mp member with same | inRest
        · exact lower_ne noSmall (Ne.symm other) same.symm
        · exact ih later inRest
      rw [snakeCaseFrom]
      split
      · exact fun member => (List.mem_cons.mp member).elim noGap behind
      · exact behind

theorem not_mem_snakeCase (noSmall : d.isLower = false) (noGap : d ≠ '_') (clear : d ∉ cs) :
    d ∉ snakeCase cs :=
  not_mem_snakeCaseFrom noSmall noGap clear

theorem not_mem_constantName (noCapital : d.isUpper = false) (clear : d ∉ cs) :
    d ∉ constantName cs := fun member =>
  forall_mem_constantName (P := (· ≠ d)) (fun _ => upper_ne noCapital)
    (fun _ stands same => clear (same ▸ stands)) d member rfl

theorem mem_of_mem_outsideAngles {depth : Int} (member : d ∈ outsideAngles depth cs) : d ∈ cs := by
  induction cs generalizing depth with
  | nil => cases member
  | cons c rest ih =>
      rw [outsideAngles] at member
      split at member
      · exact (List.mem_cons.mp member).elim (fun same => same ▸ List.mem_cons_self)
          fun later => List.mem_cons_of_mem c (ih later)
      · exact List.mem_cons_of_mem c (ih member)

theorem not_mem_stripTemplateArgs (clear : d ∉ cs) : d ∉ stripTemplateArgs cs := fun member =>
  clear (mem_of_mem_outsideAngles (mem_of_mem_trim member))

end Chars

/-! ## Names without a character -/

theorem Text.mem_of_dropPrefix? {head s rest : String} (dropped : dropPrefix? head s = some rest)
    {c : Char} (member : c ∈ rest.toList) : c ∈ s.toList := by
  obtain ⟨cs, found, rfl⟩ := Option.map_eq_some_iff.mp dropped
  rw [String.toList_ofList] at member
  unfold Chars.dropPrefix? at found
  split at found
  case isTrue =>
    cases found
    exact List.mem_of_mem_drop member
  case isFalse => cases found

namespace Name

/-- A character that no convention writes: it is no letter and none of the marks that are put into
names. -/
structure IsForeign (d : Char) : Prop where
  noCapital : d.isUpper = false
  noSmall : d.isLower = false
  noMark : d ∉ ['_', '?', '=']

theorem isForeign_colon : IsForeign ':' :=
  ⟨by decide, by decide, by decide⟩

variable {d : Char} {name rest : String}

theorem mem_of_upperSuffix? {head : String} (found : upperSuffix? head name = some rest)
    (member : d ∈ rest.toList) : d ∈ name.toList :=
  Text.mem_of_dropPrefix? (Option.filter_eq_some_iff.mp found).1 member

theorem mem_of_predicateStem? (found : predicateStem? name = some rest)
    (member : d ∈ rest.toList) : d ∈ name.toList := by
  rcases Option.or_eq_some_iff.mp found with filled | ⟨-, upper⟩
  · exact Text.mem_of_dropPrefix? (Option.filter_eq_some_iff.mp filled).1 member
  · exact mem_of_upperSuffix? upper member

namespace IsForeign

variable (foreign : IsForeign d)

include foreign

theorem not_mem_camelCase (clear : d ∉ name.toList) : d ∉ (camelCase name).toList := by
  rw [camelCase, String.toList_ofList]
  exact Chars.not_mem_camelCase foreign.noCapital clear

theorem not_mem_snakeCase (clear : d ∉ name.toList) : d ∉ (snakeCase name).toList := by
  have noGap : d ≠ '_' := by
    rintro rfl
    exact foreign.noMark (by decide)
  rw [snakeCase, String.toList_ofList]
  exact Chars.not_mem_snakeCase foreign.noSmall noGap clear

theorem not_mem_constant (clear : d ∉ name.toList) : d ∉ (constant name).toList := by
  rw [constant, String.toList_ofList]
  exact Chars.not_mem_constantName foreign.noCapital clear

theorem not_mem_marked {mark : String} (isMark : mark = "?" ∨ mark = "=")
    (clear : d ∉ name.toList) : d ∉ (snakeCase name ++ mark).toList := by
  rw [String.toList_append, List.mem_append]
  rintro (inName | inMark)
  · exact foreign.not_mem_snakeCase clear inName
  · refine foreign.noMark ?_
    rcases isMark with rfl | rfl
    · obtain rfl := List.mem_singleton.mp inMark
      decide
    · obtain rfl := List.mem_singleton.mp inMark
      decide

theorem not_mem_method {shape : MethodShape} (clear : d ∉ shape.name.toList) :
    d ∉ (method shape).toList := by
  unfold method
  dsimp only
  split
  case h_1 rest _ _ predicate =>
    split at predicate
    case isTrue =>
      exact foreign.not_mem_marked (.inl rfl) fun stands =>
        clear (mem_of_predicateStem? predicate stands)
    case isFalse => cases predicate
  case h_2 rest _ _ getter =>
    split at getter
    case isTrue =>
      exact foreign.not_mem_snakeCase fun stands => clear (mem_of_upperSuffix? getter stands)
    case isFalse => cases getter
  case h_3 rest _ _ setter =>
    split at setter
    case isTrue =>
      exact foreign.not_mem_marked (.inr rfl) fun stands =>
        clear (mem_of_upperSuffix? setter stands)
    case isFalse => cases setter
  case h_4 => exact foreign.not_mem_snakeCase clear

end IsForeign

end Name

end Bindery
