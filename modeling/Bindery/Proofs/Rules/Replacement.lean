import Bindery.Regex
import Mathlib.Data.List.Basic

/-!
# New names with groups

A new name is read once from left to right: a backslash with a digit behind it stands for a group,
and every other character for itself.  The template of a new name says the same of each piece in the
syntax in which `$` alone is special, so that what is written out is what the new name says.
-/

set_option autoImplicit false

namespace Bindery

namespace Chars

/-! ## The pieces of a new name -/

/-- What a new name is made of. -/
inductive NamePiece where
  | plain (c : Char)
  | group (digit : Char)
deriving Repr, DecidableEq

/-- The pieces of a new name: a backslash and a digit stand for a group, any other character for
itself. -/
def namePieces : List Char → List NamePiece
  | [] => []
  | [c] => [.plain c]
  | c :: d :: rest =>
      if c = '\\' ∧ d.isDigit = true then .group d :: namePieces rest
      else .plain c :: namePieces (d :: rest)

namespace NamePiece

/-- The number of the group that a digit stands for. -/
def index (digit : Char) : Nat :=
  digit.toNat - '0'.toNat

/-- What a piece contributes to the name; a group that took no part contributes nothing. -/
def fill (group : Nat → Option (List Char)) : NamePiece → List Char
  | plain c => [c]
  | .group digit => (group (index digit)).getD []

/-- How a piece is written where `$` alone is special. -/
def template : NamePiece → List Char
  | plain c => if c = '$' then ['$', '$'] else [c]
  | .group digit => ['$', '\x7b', digit, '\x7d']

/-- Whether a piece speaks of a group by a digit. -/
def IsNumbered : NamePiece → Prop
  | plain _ => True
  | .group digit => digit.isDigit = true

end NamePiece

/-- The name that pieces make, with the groups written out. -/
def fillGroups (group : Nat → Option (List Char)) (pieces : List NamePiece) : List Char :=
  pieces.flatMap (NamePiece.fill group)

theorem isNumbered_of_mem_namePieces {cs : List Char} {piece : NamePiece}
    (member : piece ∈ namePieces cs) : piece.IsNumbered := by
  fun_induction namePieces cs with
  | case1 => cases member
  | case2 c =>
      rw [List.mem_singleton.mp member]
      trivial
  | case3 c d rest refers ih =>
      rcases List.mem_cons.mp member with rfl | later
      · exact refers.2
      · exact ih later
  | case4 c d rest other ih =>
      rcases List.mem_cons.mp member with rfl | later
      · trivial
      · exact ih later

theorem replacementTemplate_cons {c : Char} {rest : List Char}
    (other : ∀ d later, rest = d :: later → ¬ (c = '\\' ∧ d.isDigit = true)) :
    replacementTemplate (c :: rest) =
      (NamePiece.plain c).template ++ replacementTemplate rest := by
  by_cases dollar : c = '$'
  · subst dollar
    rw [replacementTemplate]
    rfl
  · by_cases backslash : c = '\\'
    · subst backslash
      cases rest with
      | nil => rfl
      | cons d later =>
          have noDigit : ¬ d.isDigit = true := fun digit => other d later rfl ⟨rfl, digit⟩
          rw [replacementTemplate, if_neg noDigit]
          rfl
    · rw [replacementTemplate, NamePiece.template, if_neg dollar]
      · rfl
      · exact dollar
      · exact backslash

/-- The template of a new name is put together piece by piece. -/
theorem replacementTemplate_eq (cs : List Char) :
    replacementTemplate cs = (namePieces cs).flatMap NamePiece.template := by
  fun_induction namePieces cs with
  | case1 => rfl
  | case2 c => exact replacementTemplate_cons nofun
  | case3 c d rest refers ih =>
      obtain ⟨rfl, digit⟩ := refers
      rw [replacementTemplate, if_pos digit, ih]
      rfl
  | case4 c d rest other ih =>
      rw [List.flatMap_cons, ← ih]
      refine replacementTemplate_cons fun first later same => ?_
      cases same
      exact other

/-! ## Writing out a template -/

section

variable (group : Nat → Option (List Char))

/-- What a text stands for where `$` alone is special: two of them stand for one, a number in braces
behind one stands for a group, which is empty if it took no part, and every other character stands
for itself. -/
inductive Expands : List Char → List Char → Prop
  | nil : Expands [] []
  | dollar {rest written : List Char} (later : Expands rest written) :
      Expands ('$' :: '$' :: rest) ('$' :: written)
  | group {number rest written : List Char} (nonempty : number ≠ [])
      (digits : ∀ d ∈ number, d.isDigit = true) (later : Expands rest written) :
      Expands ('$' :: '\x7b' :: (number ++ '\x7d' :: rest))
        ((group (Nat.ofDigitChars 10 number 0)).getD [] ++ written)
  | plain {c : Char} {rest written : List Char} (other : c ≠ '$') (later : Expands rest written) :
      Expands (c :: rest) (c :: written)

variable {group}

theorem Expands.unique {text first second : List Char} (one : Expands group text first)
    (two : Expands group text second) : first = second := by
  induction one generalizing second with
  | nil =>
      cases two
      rfl
  | dollar later ih =>
      cases two with
      | dollar other => rw [ih other]
      | plain other => exact absurd rfl other
  | @group number rest written nonempty digits later ih =>
      generalize whole : '$' :: '\x7b' :: (number ++ '\x7d' :: rest) = text at two
      cases two with
      | nil => cases whole
      | dollar other => cases whole
      | plain other => exact absurd (List.cons.inj whole).1.symm other
      | @group numberThere restThere writtenThere _ digitsThere laterThere =>
          have taken {number : List Char} (all : ∀ d ∈ number, d.isDigit = true) (rest : List Char) :
              (number ++ '\x7d' :: rest).takeWhile Char.isDigit = number := by
            rw [List.takeWhile_append_of_pos all, List.takeWhile_cons_of_neg (by decide),
              List.append_nil]
          have same := (List.cons.inj (List.cons.inj whole).2).2
          have sameNumber := taken digits rest
          rw [same, taken digitsThere restThere] at sameNumber
          subst sameNumber
          cases List.append_cancel_left same
          rw [ih laterThere]
  | plain other later ih =>
      cases two with
      | dollar => exact absurd rfl other
      | group => exact absurd rfl other
      | plain _ laterThere => rw [ih laterThere]

theorem Expands.template {piece : NamePiece} (numbered : piece.IsNumbered)
    {rest written : List Char} (later : Expands group rest written) :
    Expands group (piece.template ++ rest) (piece.fill group ++ written) := by
  cases piece with
  | plain c =>
      by_cases dollar : c = '$'
      · subst dollar
        exact .dollar later
      · rw [NamePiece.template, if_neg dollar]
        exact .plain dollar later
  | group digit =>
      have value : Nat.ofDigitChars 10 [digit] 0 = NamePiece.index digit := by
        simp [Nat.ofDigitChars, NamePiece.index]
      have one := Expands.group (List.cons_ne_nil digit [])
        (fun d member => List.mem_singleton.mp member ▸ numbered) later
      rwa [value] at one

theorem expandReplacement_template {piece : NamePiece} (numbered : piece.IsNumbered)
    (rest : List Char) :
    expandReplacement group (piece.template ++ rest) =
      piece.fill group ++ expandReplacement group rest := by
  cases piece with
  | plain c =>
      by_cases dollar : c = '$'
      · subst dollar
        exact expandReplacement.eq_2 group rest
      · rw [NamePiece.template, if_neg dollar]
        exact expandReplacement.eq_4 group c rest (fun _ same _ => dollar same)
          (fun _ _ same _ => dollar same)
  | group digit =>
      have digits : digit.isDigit = true := numbered
      refine (expandReplacement.eq_3 group digit rest).trans ?_
      rw [if_pos digits]
      rfl

theorem expands_templates {pieces : List NamePiece}
    (numbered : ∀ piece ∈ pieces, piece.IsNumbered) :
    Expands group (pieces.flatMap NamePiece.template) (fillGroups group pieces) := by
  induction pieces with
  | nil => exact .nil
  | cons piece pieces ih =>
      rw [List.flatMap_cons, fillGroups, List.flatMap_cons]
      exact .template (numbered piece List.mem_cons_self)
        (ih fun other member => numbered other (List.mem_cons_of_mem _ member))

theorem expandReplacement_templates {pieces : List NamePiece}
    (numbered : ∀ piece ∈ pieces, piece.IsNumbered) :
    expandReplacement group (pieces.flatMap NamePiece.template) = fillGroups group pieces := by
  induction pieces with
  | nil => rfl
  | cons piece pieces ih =>
      have behind := ih fun other member => numbered other (List.mem_cons_of_mem _ member)
      rw [List.flatMap_cons, expandReplacement_template (numbered piece List.mem_cons_self), behind]
      rfl

variable (group) in
theorem expandReplacement_replacementTemplate (cs : List Char) :
    expandReplacement group (replacementTemplate cs) = fillGroups group (namePieces cs) := by
  rw [replacementTemplate_eq]
  exact expandReplacement_templates fun piece member => isNumbered_of_mem_namePieces member

variable (group) in
theorem expands_replacementTemplate_iff (cs : List Char) {written : List Char} :
    Expands group (replacementTemplate cs) written ↔
      written = fillGroups group (namePieces cs) := by
  have expands : Expands group (replacementTemplate cs) (fillGroups group (namePieces cs)) := by
    rw [replacementTemplate_eq]
    exact expands_templates fun piece member => isNumbered_of_mem_namePieces member
  constructor
  · exact fun other => other.unique expands
  · rintro rfl
    exact expands

end

end Chars

/-- The template of a new name, read in the syntax in which `$` alone is special, has one meaning:
the new name with each backslash and digit replaced by the group and every other character as it
stands.  This is also what is written when a name is replaced. -/
theorem templates_are_faithful (group : Nat → Option (List Char)) (target : String) :
    (∀ written, Chars.Expands group (Text.replacementTemplate target).toList written ↔
      written = Chars.fillGroups group (Chars.namePieces target.toList)) ∧
    Chars.expandReplacement group (Text.replacementTemplate target).toList =
      Chars.fillGroups group (Chars.namePieces target.toList) := by
  rw [Text.replacementTemplate, String.toList_ofList]
  exact ⟨fun _ => Chars.expands_replacementTemplate_iff group _,
    Chars.expandReplacement_replacementTemplate group _⟩

/-- Dollars, braces and a second backslash stand for themselves. -/
example : Chars.namePieces "$\\\\1$\x7b2\x7d".toList =
    [.plain '$', .plain '\\', .group '1', .plain '$', .plain '\x7b', .plain '2', .plain '\x7d'] := by
  decide

end Bindery
