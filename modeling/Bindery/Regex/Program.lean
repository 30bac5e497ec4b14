import Bindery.Regex.Syntax

/-!
# Matching regular expressions

An expression is laid out as a list of instructions, and a text is searched by following them from
each place in turn.  Of the ways to go on, the preferred one is tried first; an instruction is not
tried twice at one place, so the search ends.
-/

set_option autoImplicit false

namespace Bindery

namespace Regex

/-- One instruction.  Unless it says otherwise, the next one follows. -/
inductive Instruction where
  | consume (set : CharClass)
  | look (assertion : Assertion)
  | save (slot : Nat)
  | jump (target : Nat)
  | split (preferred other : Nat)
  | accept
deriving Repr, DecidableEq

namespace Node

/-- The number of instructions of an expression. -/
def length : Node → Nat
  | empty => 0
  | char _ => 1
  | look _ => 1
  | capture _ inner => inner.length + 2
  | seq first second => first.length + second.length
  | alt first second => first.length + second.length + 2
  | .repeat inner min max _ =>
      match max with
      | some max => min * inner.length + (max - min) * (inner.length + 1)
      | none =>
          if min = 0 then inner.length + 2 else min * inner.length + 1

/-- A choice of going on at `inside` or at `outside`, in this order if greedy. -/
def choice (greedy : Bool) (inside outside : Nat) : Instruction :=
  if greedy then .split inside outside else .split outside inside

/-- The instructions of an expression whose first one stands at `base`.  They end by going on
behind the last of them. -/
def layout (base : Nat) : Node → List Instruction
  | empty => []
  | char set => [.consume set]
  | look assertion => [.look assertion]
  | capture index inner =>
      .save (2 * index) :: inner.layout (base + 1) ++ [.save (2 * index + 1)]
  | seq first second => first.layout base ++ second.layout (base + first.length)
  | alt first second =>
      let other := base + first.length + 2
      .split (base + 1) other :: first.layout (base + 1) ++
        .jump (other + second.length) :: second.layout other
  | .repeat inner min max greedy =>
      let copies := (List.range min).flatMap fun i => inner.layout (base + i * inner.length)
      match max with
      | some max =>
          let start := base + min * inner.length
          let step := inner.length + 1
          let outside := start + (max - min) * step
          copies ++ (List.range (max - min)).flatMap fun i =>
            choice greedy (start + i * step + 1) outside ::
              inner.layout (start + i * step + 1)
      | none =>
          if min = 0 then
            let outside := base + inner.length + 2
            choice greedy (base + 1) outside :: inner.layout (base + 1) ++
              [if inner.consumes then .jump base else choice greedy (base + 1) outside]
          else
            let last := base + (min - 1) * inner.length
            copies ++ [choice greedy last (base + min * inner.length + 1)]

/-- The instructions of a whole expression. -/
def program (node : Node) : Array Instruction :=
  (node.layout 0 ++ [Instruction.accept]).toArray

end Node

/-- The places saved on the way, slot by slot, the latest first. -/
abbrev Saved := List (Nat × Nat)

/-- A way still to be tried: an instruction, a place, and what has been saved. -/
structure Branch where
  instruction : Nat
  place : Nat
  saved : Saved
deriving Repr, DecidableEq

/-- The ways on from a branch, the preferred one first, or that it ends in a match. -/
def Branch.next (program : Array Instruction) (text : Array Char) (branch : Branch) :
    Option (List Branch) :=
  let go (instruction : Nat) : Branch := { branch with instruction }
  match program[branch.instruction]? with
  | none => some []
  | some .accept => none
  | some (.consume set) =>
      if text[branch.place]?.any set.holds then
        some [⟨branch.instruction + 1, branch.place + 1, branch.saved⟩]
      else
        some []
  | some (.look assertion) =>
      let before := if branch.place = 0 then none else text[branch.place - 1]?
      if assertion.holds before text[branch.place]? then
        some [go (branch.instruction + 1)]
      else
        some []
  | some (.save slot) =>
      some [⟨branch.instruction + 1, branch.place, (slot, branch.place) :: branch.saved⟩]
  | some (.jump target) => some [go target]
  | some (.split preferred other) => some [go preferred, go other]

/-- Follows the branches in order until one matches.  `tried` marks the instructions tried at each
place, `width` of them to an instruction. -/
def follow (program : Array Instruction) (text : Array Char) (width : Nat) :
    Nat → Array Bool → List Branch → Option Branch
  | 0, _, _ => none
  | _ + 1, _, [] => none
  | fuel + 1, tried, branch :: later =>
      let mark := branch.instruction * width + branch.place
      if tried.getD mark true then
        follow program text width fuel tried later
      else
        match branch.next program text with
        | none => some branch
        | some next =>
            follow program text width fuel (tried.setIfInBounds mark true) (next ++ later)

/-- A match: where it starts and stops, and the places of its groups. -/
structure Match where
  start : Nat
  stop : Nat
  saved : Saved
deriving Repr, DecidableEq

/-- The text between the places saved for a group, if it took part. -/
def Match.group? (found : Match) (text : List Char) (index : Nat) : Option (List Char) :=
  if index = 0 then
    some ((text.take found.stop).drop found.start)
  else
    match found.saved.lookup (2 * index), found.saved.lookup (2 * index + 1) with
    | some start, some stop => some ((text.take stop).drop start)
    | _, _ => none

def matchAt? (program : Array Instruction) (text : Array Char) (start : Nat) : Option Match :=
  let width := text.size + 1
  let marks := program.size * width
  (follow program text width (2 * marks + 2) (Array.replicate marks false) [⟨0, start, []⟩]).map
    fun branch => ⟨start, branch.place, branch.saved⟩

end Regex

end Bindery
