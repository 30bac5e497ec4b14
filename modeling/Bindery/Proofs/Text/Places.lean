import Bindery.Proofs.Text.Brackets
import Bindery.Proofs.Text.InstanceName

/-!
# Places in nested lists

A place in a spelling is a way into its lists of arguments: at each step the number of a list, since
several can stand behind one another, and the number of an argument in it.
-/

set_option autoImplicit false

namespace Bindery

namespace Text

/-- The list of a number among the lists that stand behind one another in a text. -/
def listAt? : Nat → String → Option String
  | 0, s => (splitTemplate s).map fun (_, args, _) => args
  | number + 1, s => (splitTemplate s).bind fun (_, _, rest) => listAt? number rest

/-- The argument at a place: a list and an argument in it at each step. -/
def argumentAt? : List (Nat × Nat) → String → Option String
  | [], s => some s
  | (number, index) :: path, s =>
      (listAt? number s).bind fun args =>
        (templateArgs args)[index]?.bind (argumentAt? path)

/-- The argument at a place that starts in a list. -/
def argumentIn? (index : Nat) (path : List (Nat × Nat)) (args : String) : Option String :=
  (templateArgs args)[index]?.bind (argumentAt? path)

/-- Brackets are balanced in each argument of each list. -/
inductive IsBracketed : String → Prop
  | plain {s : String} (none : splitTemplate s = none) : IsBracketed s
  | list {s base args rest : String} (split : splitTemplate s = some (base, args, rest))
      (arguments : ∀ arg ∈ templateArgs args, IsArgument arg)
      (inner : ∀ arg ∈ templateArgs args, IsBracketed arg) (behind : IsBracketed rest) :
      IsBracketed s

/-- The arguments of a list are arguments at every depth. -/
structure IsBracketedList (args : String) : Prop where
  arguments : ∀ arg ∈ templateArgs args, IsArgument arg
  inner : ∀ arg ∈ templateArgs args, IsBracketed arg

theorem argumentAt?_cons (number index : Nat) (path : List (Nat × Nat)) (s : String) :
    argumentAt? ((number, index) :: path) s = (listAt? number s).bind (argumentIn? index path) :=
  rfl

section

variable {s base args rest : String} (split : splitTemplate s = some (base, args, rest))

include split

theorem listAt?_zero : listAt? 0 s = some args := by
  rw [listAt?, split]
  rfl

theorem listAt?_succ (number : Nat) : listAt? (number + 1) s = listAt? number rest := by
  rw [listAt?, split]
  rfl

theorem IsBracketed.isBracketedList (bracketed : IsBracketed s) : IsBracketedList args := by
  cases bracketed with
  | plain none => rw [split] at none; cases none
  | list found arguments inner =>
      cases found.symm.trans split
      exact ⟨arguments, inner⟩

end

/-- At most one list, with arguments that have none. -/
def IsFlat (s : String) : Prop :=
  ∀ parts ∈ splitTemplate s,
    (∀ arg ∈ templateArgs parts.2.1, IsArgument arg ∧ splitTemplate arg = none) ∧
      splitTemplate parts.2.2 = none

instance (s : String) : Decidable (IsFlat s) :=
  inferInstanceAs (Decidable (∀ parts ∈ splitTemplate s,
    (∀ arg ∈ templateArgs parts.2.1, IsArgument arg ∧ splitTemplate arg = none) ∧
      splitTemplate parts.2.2 = none))

theorem IsFlat.isBracketed {s : String} (flat : IsFlat s) : IsBracketed s := by
  cases split : splitTemplate s with
  | none => exact .plain split
  | some parts =>
      obtain ⟨arguments, last⟩ := flat parts split
      exact .list split (fun arg member => (arguments arg member).1)
        (fun arg member => .plain (arguments arg member).2) (.plain last)

/-- Where there is a list, the text is split. -/
theorem exists_of_listAt? {number : Nat} {s args : String} (found : listAt? number s = some args) :
    ∃ base first rest, splitTemplate s = some (base, first, rest) := by
  cases split : splitTemplate s with
  | none => cases number <;> rw [listAt?, split] at found <;> cases found
  | some parts => exact ⟨parts.1, parts.2.1, parts.2.2, rfl⟩

/-! ## A text in front -/

section

variable {front : String} (plain : '<' ∉ front.toList)

include plain

theorem splitTemplate_prepend {s base args rest : String}
    (split : splitTemplate s = some (base, args, rest)) :
    splitTemplate (front ++ s) = some (front ++ base, args, rest) := by
  obtain ⟨whole, before, balanced⟩ := splitTemplate_eq_some_iff.mp split
  refine splitTemplate_eq_some_iff.mpr ⟨?_, ?_, balanced⟩
  · rw [whole]
    simp only [String.append_assoc]
  · rw [String.toList_append, List.mem_append]
    exact not_or.mpr ⟨plain, before⟩

/-- A text without lists in front leaves the lists in their places. -/
theorem listAt?_prepend {number : Nat} {s args : String} (found : listAt? number s = some args) :
    listAt? number (front ++ s) = some args := by
  obtain ⟨base, first, rest, split⟩ := exists_of_listAt? found
  have moved := splitTemplate_prepend plain split
  cases number with
  | zero => rwa [listAt?_zero moved, ← listAt?_zero split]
  | succ number => rwa [listAt?_succ moved, ← listAt?_succ split]

theorem argumentAt?_prepend {number index : Nat} {path : List (Nat × Nat)} {s arg : String}
    (found : argumentAt? ((number, index) :: path) s = some arg) :
    argumentAt? ((number, index) :: path) (front ++ s) = some arg := by
  obtain ⟨args, isList, inside⟩ := Option.bind_eq_some_iff.mp found
  rw [argumentAt?_cons, listAt?_prepend plain isList]
  exact inside

end

end Text

end Bindery
