import Bindery.Text.Word

/-!
# Edits

A set of replacements over one source text, collected first and applied once.  An edit that
overlaps an earlier one is refused, and the accepted edits are applied from left to right.  Places
are counted in characters.
-/

set_option autoImplicit false

namespace Bindery

/-- Replaces the characters from place `start` up to place `stop` by `text`. -/
structure Edit where
  start : Nat
  stop : Nat
  text : List Char
deriving Repr, DecidableEq

/-- Two edits overlap if each begins before the other ends. -/
def Edit.overlaps (a b : Edit) : Bool :=
  a.start < b.stop && b.start < a.stop

/-- Accepted edits, in the order in which they came. -/
structure Edits where
  toList : List Edit
deriving Repr, DecidableEq

namespace Edits

def empty : Edits :=
  ⟨[]⟩

/-- Whether nothing has been accepted. -/
def isEmpty (edits : Edits) : Bool :=
  edits.toList.isEmpty

/-- Accepts an edit that overlaps none of the accepted ones. -/
def push? (edits : Edits) (edit : Edit) : Option Edits :=
  if edits.toList.any edit.overlaps then none else some ⟨edits.toList ++ [edit]⟩

/-- Accepts an edit or leaves the edits as they are. -/
def push (edits : Edits) (edit : Edit) : Edits :=
  (edits.push? edit).getD edits

/-- Offers edits in turn; tells for each whether it was accepted. -/
def pushAll (edits : Edits) : List Edit → Edits × List Bool
  | [] => (edits, [])
  | edit :: later =>
      let (final, accepted) := (edits.push edit).pushAll later
      (final, (edits.push? edit).isSome :: accepted)

/-- The accepted edits by start; of two with one start the earlier accepted comes first. -/
def sorted (edits : Edits) : List Edit :=
  edits.toList.mergeSort fun a b => a.start ≤ b.start

/-- Copies the source from `cursor` on with the edits carried out.  There is no result if an edit
starts before the cursor or a place lies beyond the source. -/
def applyFrom (source : List Char) (cursor : Nat) : List Edit → Option (List Char)
  | [] => if cursor ≤ source.length then some (source.drop cursor) else none
  | edit :: later =>
      if cursor ≤ edit.start ∧ edit.start ≤ source.length then
        (applyFrom source edit.stop later).map fun rest =>
          (source.take edit.start).drop cursor ++ edit.text ++ rest
      else
        none

/-- The source with the accepted edits carried out. -/
def splice? (edits : Edits) (source : List Char) : Option (List Char) :=
  applyFrom source 0 edits.sorted

/-- The source with the accepted edits carried out, or unchanged if they cannot be. -/
def apply (edits : Edits) (source : List Char) : List Char :=
  (edits.splice? source).getD source

end Edits

end Bindery
