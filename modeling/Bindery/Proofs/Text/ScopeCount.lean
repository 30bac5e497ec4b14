import Bindery.Proofs.Text.Rewriting
import Bindery.Proofs.Text.Trimming

/-!
# Counting scopes

The `::` of a text are those of its pieces if the pieces are put together by other characters.
Splitting a list of arguments, trimming and writing names out lose none of them.
-/

set_option autoImplicit false

namespace Bindery

namespace Chars

/-! ## Pieces -/

/-- A character that is no colon lies between the scopes on its two sides. -/
theorem scopeCount_append_cons {c : Char} (other : c ≠ ':') (left right : List Char) :
    scopeCount (left ++ c :: right) = scopeCount left + scopeCount right := by
  fun_induction scopeCount left with
  | case1 rest ih =>
      rw [List.cons_append, List.cons_append, scopeCount, ih]
      omega
  | case2 d rest unpaired ih =>
      have apart : ∀ tail, d = ':' → rest ++ c :: right = ':' :: tail → False := by
        intro tail colon starts
        cases rest with
        | nil => exact other (List.head_eq_of_cons_eq starts)
        | cons e rest =>
            cases starts
            exact unpaired rest colon rfl
      rw [List.cons_append, scopeCount, ih]
      exact apart
  | case3 => simp [scopeCount, other]

theorem scopeCount_cons {c : Char} (other : c ≠ ':') (cs : List Char) :
    scopeCount (c :: cs) = scopeCount cs := by
  have split := scopeCount_append_cons other [] cs
  simpa [scopeCount] using split

theorem scopeCount_append_left {cs : List Char} (plain : ':' ∉ cs) (rest : List Char) :
    scopeCount (cs ++ rest) = scopeCount rest := by
  induction cs with
  | nil => rfl
  | cons c cs ih =>
      have other : c ≠ ':' := fun colon => plain (colon ▸ List.mem_cons_self)
      rw [List.cons_append, scopeCount_cons other, ih fun member => plain (.tail _ member)]

theorem scopeCount_append_right {cs : List Char} (plain : ':' ∉ cs) (front : List Char) :
    scopeCount (front ++ cs) = scopeCount front := by
  cases cs with
  | nil => rw [List.append_nil]
  | cons c cs =>
      have other : c ≠ ':' := fun colon => plain (colon ▸ List.mem_cons_self)
      have rest := scopeCount_append_left (fun member => plain (.tail _ member)) []
      rw [List.append_nil] at rest
      rw [scopeCount_append_cons other, rest, scopeCount, Nat.add_zero]

theorem scopeCount_eq_zero {cs : List Char} (plain : ':' ∉ cs) : scopeCount cs = 0 := by
  have alone := scopeCount_append_left plain []
  rwa [List.append_nil] at alone

/-- The number of `::` in several texts. -/
def totalScopes : List (List Char) → Nat
  | [] => 0
  | piece :: pieces => scopeCount piece + totalScopes pieces

theorem scopeCount_intercalate {separator : List Char} (plain : ':' ∉ separator)
    (nonempty : separator ≠ []) (pieces : List (List Char)) :
    scopeCount (separator.intercalate pieces) = totalScopes pieces := by
  obtain ⟨c, others, rfl⟩ := List.exists_cons_of_ne_nil nonempty
  have other : c ≠ ':' := fun colon => plain (colon ▸ List.mem_cons_self)
  induction pieces with
  | nil => simp [scopeCount, totalScopes]
  | cons first pieces ih =>
      cases pieces with
      | nil => simp [totalScopes]
      | cons second pieces =>
          rw [List.intercalate_cons_cons, List.append_assoc, List.cons_append,
            scopeCount_append_cons other, scopeCount_append_left fun member =>
              plain (.tail _ member), ih]
          rfl

/-! ## Trimming and splitting -/

theorem ne_colon_of_isBlank {c : Char} (blank : isBlank c = true) : c ≠ ':' := by
  rintro rfl
  exact absurd blank (by decide)

theorem scopeCount_dropWhile (cs : List Char) :
    scopeCount (cs.dropWhile isBlank) = scopeCount cs := by
  induction cs with
  | nil => rfl
  | cons c cs ih =>
      cases blank : isBlank c with
      | true =>
          rw [List.dropWhile_cons_of_pos blank, ih, scopeCount_cons (ne_colon_of_isBlank blank)]
      | false => rw [List.dropWhile_cons_of_neg (by simp [blank])]

theorem scopeCount_trimEnd (cs : List Char) : scopeCount (trimEnd cs) = scopeCount cs := by
  have blanks : ':' ∉ (cs.reverse.takeWhile isBlank).reverse := by
    intro member
    have blank := List.mem_takeWhile_imp (List.mem_reverse.mp member)
    exact ne_colon_of_isBlank blank rfl
  have parts : trimEnd cs ++ (cs.reverse.takeWhile isBlank).reverse = cs := by
    rw [trimEnd, ← List.reverse_append, List.takeWhile_append_dropWhile, List.reverse_reverse]
  rw [← scopeCount_append_right blanks (trimEnd cs), parts]

theorem scopeCount_trim (cs : List Char) : scopeCount (trim cs) = scopeCount cs := by
  rw [trim, scopeCount_trimEnd, trimStart, scopeCount_dropWhile]

theorem intercalate_consFirst (c : Char) {pieces : List (List Char)} (some : pieces ≠ []) :
    [','].intercalate (consFirst c pieces) = c :: [','].intercalate pieces := by
  cases pieces with
  | nil => exact absurd rfl some
  | cons piece pieces => exact List.intercalate_cons_cons_left

theorem intercalate_argumentPieces (depth : Int) (cs : List Char) :
    argumentPieces depth cs ≠ [] ∧ [','].intercalate (argumentPieces depth cs) = cs := by
  induction cs generalizing depth with
  | nil => simp [argumentPieces]
  | cons c cs ih =>
      obtain ⟨some, joined⟩ := ih (depth + nesting c)
      rw [argumentPieces]
      split
      case isTrue comma =>
          obtain ⟨rfl, rfl⟩ := comma
          obtain ⟨someBehind, joinedBehind⟩ := ih 0
          refine ⟨List.cons_ne_nil _ _, ?_⟩
          rw [List.intercalate_cons_of_ne_nil someBehind, joinedBehind]
          rfl
      case isFalse =>
          refine ⟨?_, by rw [intercalate_consFirst c some, joined]⟩
          cases pieces : argumentPieces (depth + nesting c) cs <;> simp [consFirst]

theorem totalScopes_templateArgs (cs : List Char) :
    totalScopes (templateArgs cs) = scopeCount cs := by
  have kept : ∀ pieces : List (List Char),
      totalScopes ((pieces.map trim).filter fun arg => !arg.isEmpty) = totalScopes pieces := by
    intro pieces
    induction pieces with
    | nil => rfl
    | cons piece pieces ih =>
        have same := scopeCount_trim piece
        rw [List.map_cons, List.filter_cons, totalScopes, ← ih, ← same]
        cases trim piece with
        | nil => simp [scopeCount]
        | cons c rest => simp [totalScopes]
  have joined : scopeCount ([','].intercalate (argumentPieces 0 cs)) =
      totalScopes (argumentPieces 0 cs) :=
    scopeCount_intercalate (by decide) (by decide) _
  rw [templateArgs, kept, ← joined, (intercalate_argumentPieces 0 cs).2]

/-- A list ends at a closing bracket where no bracket is open.  Any other character is a part of it,
after which as many are open as the character opens or closes. -/
theorem splitAtClose_cons_eq_some {depth : Nat} {c : Char} {cs inner rest : List Char}
    (split : splitAtClose depth (c :: cs) = some (inner, rest)) :
    (c = '>' ∧ depth = 0 ∧ inner = [] ∧ rest = cs) ∨
      ∃ (level : Nat) (before : List Char), level = depth + angleNesting c ∧
        splitAtClose level cs = some (before, rest) ∧ inner = c :: before := by
  rw [splitAtClose.eq_def] at split
  dsimp only at split
  split at split
  case isTrue closes =>
      cases depth with
      | zero =>
          cases split
          exact .inl ⟨closes, rfl, rfl, rfl⟩
      | succ depth =>
          obtain ⟨⟨before, after⟩, found, same⟩ := Option.map_eq_some_iff.mp split
          cases same
          refine .inr ⟨depth, before, ?_, found, rfl⟩
          rw [closes, Int.natCast_succ]
          exact (Int.add_neg_cancel_right _ 1).symm
  case isFalse other =>
      obtain ⟨⟨before, after⟩, found, same⟩ := Option.map_eq_some_iff.mp split
      cases same
      refine .inr ⟨_, before, ?_, found, rfl⟩
      by_cases opens : c = '<' <;> simp [angleNesting, opens, other]

theorem splitAtClose_eq_some {depth : Nat} {cs inner rest : List Char}
    (split : splitAtClose depth cs = some (inner, rest)) : cs = inner ++ '>' :: rest := by
  induction cs generalizing depth inner with
  | nil => cases split
  | cons c cs ih =>
      obtain ⟨rfl, -, rfl, rfl⟩ | ⟨level, before, -, found, rfl⟩ :=
        splitAtClose_cons_eq_some split
      · rfl
      · rw [ih found, List.cons_append]

theorem splitTemplate_eq_some {cs base args rest : List Char}
    (split : splitTemplate cs = some (base, args, rest)) :
    cs = base ++ '<' :: (args ++ '>' :: rest) := by
  have parts := List.takeWhile_append_dropWhile (p := (· != '<')) (l := cs)
  rw [splitTemplate] at split
  cases behind : cs.dropWhile (· != '<') with
  | nil => simp [behind] at split
  | cons c inside =>
      have opens := List.head?_dropWhile_not (· != '<') cs
      rw [behind] at split opens
      obtain ⟨⟨inner, after⟩, found, same⟩ := Option.map_eq_some_iff.mp split
      cases same
      have angle : c = '<' := by simpa using opens
      rw [← splitAtClose_eq_some found]
      exact (parts.symm.trans (congrArg (_ ++ ·) behind)).trans (congrArg (_ ++ · :: inside) angle)

/-- The scopes of a name with arguments are those of its parts. -/
theorem scopeCount_template (base args rest : List Char) :
    scopeCount (base ++ '<' :: (args ++ '>' :: rest)) =
      scopeCount base + scopeCount args + scopeCount rest := by
  rw [scopeCount_append_cons (by decide), scopeCount_append_cons (by decide), Nat.add_assoc]

end Chars

/-! ## Builtin types -/

/-- A character that shows, and that stands in none of the names of builtin types, stands in no
spelling of one. -/
theorem Text.not_mem_of_isPrimitive {c : Char} (shown : Chars.isBlank c = false)
    (plain : ∀ name ∈ "const " :: "volatile " :: primitives, c ∉ name.toList) {s : String}
    (primitive : isPrimitive s = true) : c ∉ s.toList := by
  have constWord := plain "const " (by simp)
  have volatileWord := plain "volatile " (by simp)
  have bare := plain _ (List.mem_cons_of_mem _ (List.mem_cons_of_mem _
    (List.contains_iff_mem.mp primitive)))
  simpa only [dropCopies, trim, String.toList_ofList, Chars.mem_dropCopies volatileWord,
    Chars.mem_dropCopies constWord, Chars.mem_trim shown] using bare

theorem Text.scopeCount_eq_zero_of_isPrimitive {s : String} (primitive : isPrimitive s = true) :
    Chars.scopeCount s.toList = 0 :=
  Chars.scopeCount_eq_zero (not_mem_of_isPrimitive (by decide) (by decide) primitive)

namespace Chars

/-! ## Writing names out -/

theorem scopeCount_le_cons (cs : List Char) :
    ∀ c, scopeCount cs ≤ scopeCount (c :: cs) ∧ scopeCount (c :: cs) ≤ scopeCount cs + 1 := by
  induction cs with
  | nil => intro c; simp [scopeCount]
  | cons d cs ih =>
      intro c
      by_cases pair : c = ':' ∧ d = ':'
      · obtain ⟨rfl, rfl⟩ := pair
        have inner := ih ':'
        rw [scopeCount]
        omega
      · have same : scopeCount (c :: d :: cs) = scopeCount (d :: cs) := by
          rw [scopeCount]
          intro tail colon starts
          exact pair ⟨colon, List.head_eq_of_cons_eq starts⟩
        omega

theorem scopeCount_le_append (front cs : List Char) :
    scopeCount cs ≤ scopeCount (front ++ cs) := by
  induction front with
  | nil => exact Nat.le_refl _
  | cons c front ih => exact Nat.le_trans ih (scopeCount_le_cons _ c).1

/-- A colon stays where it is, so that a pair of them stays together. -/
theorem scopeCount_replaceWords (meaning : List Char → Option (List Char))
    (front cs : List Char) :
    scopeCount cs ≤ scopeCount (replaceWords meaning front cs) ∧
      ∀ tail, cs = ':' :: tail → ∃ written,
        replaceWords meaning front cs = ':' :: written ∧ scopeCount tail ≤ scopeCount written := by
  fun_induction replaceWords meaning front cs with
  | case1 front =>
      refine ⟨Nat.le_refl _, ?_⟩
      intro tail starts
      cases starts
  | case2 front c rest ident run ih =>
      have plain : ':' ∉ run := by
        intro member
        exact absurd (forall_isIdentChar_run ident rest ':' member) (by decide)
      have cut : c :: rest = run ++ rest.dropWhile isIdentChar := by
        simp [run, List.takeWhile_append_dropWhile]
      constructor
      · rw [cut, scopeCount_append_left plain]
        exact Nat.le_trans ih.1 (scopeCount_le_append _ _)
      · intro tail starts
        cases starts
        exact absurd ident (by decide)
  | case3 front c rest other ih =>
      have own : ∀ tail, c :: rest = ':' :: tail → ∃ written,
          c :: replaceWords meaning (front ++ [c]) rest = ':' :: written ∧
            scopeCount tail ≤ scopeCount written := by
        intro tail starts
        cases starts
        exact ⟨_, rfl, ih.1⟩
      refine ⟨?_, own⟩
      by_cases pair : c = ':' ∧ ∃ tail, rest = ':' :: tail
      · obtain ⟨rfl, tail, rfl⟩ := pair
        obtain ⟨written, starts, kept⟩ := ih.2 tail rfl
        rw [starts, scopeCount, scopeCount]
        omega
      · have single : scopeCount (c :: rest) = scopeCount rest := by
          rw [scopeCount]
          intro tail colon starts
          exact pair ⟨colon, tail, starts⟩
        rw [single]
        exact Nat.le_trans ih.1 (scopeCount_le_cons _ c).1

end Chars

end Bindery
