import Bindery.Regex.Parser
import Bindery.Regex.Program
import Bindery.Regex.Replacement

/-!
# Searching with regular expressions

A regular expression is read once and then searched for in names.  The leftmost match counts, and
of several that start there the one that the expression prefers.
-/

set_option autoImplicit false

namespace Bindery

/-- A regular expression: its text and its meaning. -/
structure Regex where
  source : String
  node : Regex.Node
deriving Repr, DecidableEq

namespace Regex

/-- A rough size of a set of characters when it is laid out over the bytes of UTF-8. -/
def CharClass.weight : CharClass → Nat
  | range _ last => if last.toNat < 128 then 1 else 4
  | digit => 70
  | blank => 10
  | word => 800
  | category _ => 500
  | script _ => 50
  | property _ => 500
  | none => 1
  | union a b => a.weight + b.weight
  | inter a b => max a.weight b.weight
  | diff a b => max a.weight b.weight
  | symmDiff a b => a.weight + b.weight
  | compl a => a.weight + 8
  | fold _ a => 2 * a.weight

/-- A rough size of an expression with its repetitions written out. -/
def Node.weight : Node → Nat
  | empty => 1
  | char set => set.weight
  | look _ => 1
  | capture _ inner => inner.weight + 2
  | seq first second => first.weight + second.weight
  | alt first second => first.weight + second.weight + 2
  | .repeat inner min max _ =>
      match max with
      | some max => max * (inner.weight + 1)
      | none => (min + 1) * (inner.weight + 1)

/-- The size beyond which an expression is refused. -/
def maxWeight : Nat := 327680

/-- Reads an expression; an invalid one and one that grows too large are refused. -/
def parse? (source : String) : Option Regex := do
  let text := source.toList
  let (node, reader) ← (readAlts [] [] (2 * text.length + 2)).run ⟨text, .initial, 0, []⟩
  if reader.rest.isEmpty && node.weight ≤ maxWeight then some ⟨source, node⟩ else none

def find? (regex : Regex) (text : List Char) : Option Match :=
  let program := regex.node.program
  let array := text.toArray
  (List.range (text.length + 1)).findSome? (matchAt? program array)

/-- Whether the expression matches somewhere in a text. -/
def isMatch (regex : Regex) (text : String) : Bool :=
  (regex.find? text.toList).isSome

/-- Replaces the first match by a text in which `$` alone is special. -/
def replaceFirst (regex : Regex) (text replacement : String) : String :=
  let cs := text.toList
  match regex.find? cs with
  | none => text
  | some found =>
      String.ofList <|
        cs.take found.start
          ++ Chars.expandReplacement (found.group? cs) replacement.toList
          ++ cs.drop found.stop

end Regex

end Bindery
