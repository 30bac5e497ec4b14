import Bindery.Proofs.Text.Arguments
import Bindery.Proofs.Text.Beginnings
import Bindery.Proofs.Text.ScopePath
import Mathlib.Data.List.TakeWhile

/-!
# Names of instantiations

The name of an instantiation is a path.  Its last component carries the arguments of the template,
and the scopes before it may be instantiations with arguments of their own.  Where the text is split
at its first argument list, the outermost of these is read.
-/

set_option autoImplicit false

namespace Bindery

namespace Text

/-- A component of a path as it is written, with the arguments behind it if it has some. -/
structure NamePart where
  name : String
  args : Option (List String)
deriving Repr, DecidableEq

namespace NamePart

def text (part : NamePart) : String :=
  part.name ++ argumentList part.args

/-- The brackets of the argument list are the first ones, and each argument is one. -/
structure IsReadable (part : NamePart) : Prop where
  plain : '<' ∉ part.name.toList
  arguments : ∀ list ∈ part.args, ∀ arg ∈ list, IsArgument arg

instance (part : NamePart) : Decidable part.IsReadable :=
  decidable_of_iff
    ('<' ∉ part.name.toList ∧ ∀ list ∈ part.args, ∀ arg ∈ list, IsArgument arg)
    ⟨fun ⟨plain, arguments⟩ => ⟨plain, arguments⟩,
      fun readable => ⟨readable.plain, readable.arguments⟩⟩

end NamePart

/-- A path of components. -/
def joinParts (parts : List NamePart) : String :=
  joinScope (parts.map (·.text))

/-- What stands behind a component of a path. -/
def partsBehind : List NamePart → String
  | [] => ""
  | parts => "::" ++ joinParts parts

theorem joinParts_cons (part : NamePart) (others : List NamePart) :
    joinParts (part :: others) = part.text ++ partsBehind others := by
  cases others with
  | nil => exact (String.append_empty).symm
  | cons second others =>
      simp [joinParts, joinScope, partsBehind, String.intercalate_cons_cons, String.append_assoc]

theorem splitTemplate_eq_none {s : String} (plain : '<' ∉ s.toList) : splitTemplate s = none := by
  have nothing : s.toList.dropWhile (· != '<') = [] :=
    List.dropWhile_eq_nil_iff.mpr (Chars.ne_of_plain plain)
  rw [splitTemplate, Chars.splitTemplate, nothing]
  rfl

/-- The arguments that are read from a text. -/
def readArgs (s : String) : Option (List String) :=
  (splitTemplate s).map fun (_, args, _) => templateArgs args

theorem readArgs_append {base : String} {args : List String} (plain : '<' ∉ base.toList)
    (arguments : ∀ arg ∈ args, IsArgument arg) (rest : String) :
    readArgs (base ++ argumentList (some args) ++ rest) = some args := by
  have parts : base ++ argumentList (some args) ++ rest =
      base ++ "<" ++ joinArgs args ++ ">" ++ rest := by
    simp only [argumentList, String.append_assoc]
  rw [readArgs, parts, splitTemplate_joinArgs plain arguments]
  exact congrArg some (templateArgs_joinArgs arguments)

/-- The arguments read from a path are the outermost ones. -/
theorem readArgs_joinParts {front : String} (plain : '<' ∉ front.toList) {parts : List NamePart}
    (readable : ∀ part ∈ parts, part.IsReadable) :
    readArgs (front ++ joinParts parts) = parts.findSome? (·.args) := by
  induction parts generalizing front with
  | nil =>
      have nothing : joinParts [] = "" := rfl
      rw [nothing, String.append_empty, readArgs, splitTemplate_eq_none plain]
      rfl
  | cons part others ih =>
      obtain ⟨name, args⟩ := part
      have own := readable _ List.mem_cons_self
      have longer : '<' ∉ (front ++ name).toList := by
        simpa using ⟨plain, own.plain⟩
      rw [joinParts_cons, List.findSome?_cons, NamePart.text]
      cases args with
      | some args =>
          rw [← String.append_assoc, ← String.append_assoc,
            readArgs_append longer (own.arguments args rfl)]
      | none =>
          rw [argumentList, String.append_empty, ← String.append_assoc]
          cases others with
          | nil =>
              rw [partsBehind, String.append_empty, readArgs, splitTemplate_eq_none longer]
              rfl
          | cons second others =>
              have still : '<' ∉ (front ++ name ++ "::").toList := by simpa using longer
              rw [partsBehind, ← String.append_assoc]
              · exact ih still fun part member => readable part (List.mem_cons_of_mem _ member)
              · exact List.cons_ne_nil _ _

/-! ## Instantiations -/

/-- The name of an instantiation: the scopes around the template, its own name and the arguments
that are written for it. -/
structure InstanceName where
  scopes : List NamePart
  name : String
  args : List String
deriving Repr, DecidableEq

namespace InstanceName

variable (written : InstanceName)

def parts : List NamePart :=
  written.scopes ++ [⟨written.name, some written.args⟩]

def text : String :=
  joinParts written.parts

/-- The first argument list of the name. -/
def outermostArgs : List String :=
  (written.scopes.findSome? (·.args)).getD written.args

/-- The first argument list of the name is the template's own, or says the same. -/
def OwnFirst : Prop :=
  ∀ list, written.scopes.findSome? (·.args) = some list → list = written.args

/-- The lists can be read, and no `const ` stands in front. -/
structure IsReadable : Prop where
  parts : ∀ part ∈ written.parts, part.IsReadable
  bare : startsWith "const " written.text = false

instance : Decidable written.IsReadable :=
  decidable_of_iff
    ((∀ part ∈ written.parts, part.IsReadable) ∧ startsWith "const " written.text = false)
    ⟨fun ⟨parts, bare⟩ => ⟨parts, bare⟩, fun readable => ⟨readable.parts, readable.bare⟩⟩

variable {written}

theorem outermostArgs_eq_iff : written.outermostArgs = written.args ↔ written.OwnFirst := by
  rw [outermostArgs, OwnFirst]
  cases written.scopes.findSome? (·.args) <;> simp

theorem IsReadable.readArgs_append (readable : written.IsReadable) {front : String}
    (plain : '<' ∉ front.toList) :
    readArgs (front ++ written.text) = some written.outermostArgs := by
  rw [text, readArgs_joinParts plain readable.parts, InstanceName.parts, List.findSome?_append,
    outermostArgs]
  cases written.scopes.findSome? (·.args) <;> rfl

end InstanceName

end Text

end Bindery
