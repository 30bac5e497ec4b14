import Bindery.Proofs.Text.Literals
import Bindery.Spelling.Default
import Bindery.Tree.Build

/-!
# Names in the default values of a tree

A reference counts as a use of a name if its simple name ends the full name of what it refers to, as
texts.  A name that came through a macro is meant to be left alone, and is unless it is misread:
then it ends the full name without being the name that is declared.  The names are looked for in the
whole text, its literals included.
-/

set_option autoImplicit false

namespace Bindery

namespace NameUse

/-- A use that is counted: the simple name is not empty and ends the full one, which is longer. -/
structure Counts (use : NameUse) : Prop where
  nonempty : use.simple ≠ ""
  ends : Text.endsWith use.simple use.qualified = true
  longer : use.simple ≠ use.qualified

theorem counts_iff {use : NameUse} : use.Counts ↔
    (use.simple.isEmpty || !Text.endsWith use.simple use.qualified ||
      use.simple == use.qualified) = false := by
  simp only [Bool.or_eq_false_iff, Bool.not_eq_false', beq_eq_false_iff_ne, ne_eq,
    String.isEmpty_eq_false_iff]
  exact ⟨fun ⟨nonempty, ends, longer⟩ => ⟨⟨nonempty, ends⟩, longer⟩,
    fun ⟨⟨nonempty, ends⟩, longer⟩ => ⟨nonempty, ends, longer⟩⟩

instance (use : NameUse) : Decidable use.Counts :=
  decidable_of_iff _ counts_iff.symm

theorem Counts.length_lt {use : NameUse} (counts : use.Counts) :
    use.simple.length < use.qualified.length := by
  have ends := List.isSuffixOf_iff_suffix.mp counts.ends
  have short := ends.length_le
  have different : use.simple.toList.length ≠ use.qualified.toList.length := fun same =>
    counts.longer (String.toList_inj.mp (ends.eq_of_length same))
  rw [String.length_toList, String.length_toList] at short different
  omega

end NameUse

namespace DeclTree

variable {tree : DeclTree} {param node target : DeclId}

/-- Whether a node is a reference to a declaration. -/
structure RefersTo (tree : DeclTree) (node target : DeclId) : Prop where
  reference : (tree.decl node).kind = .typeRef ∨ (tree.decl node).kind = .templateRef ∨
    (tree.decl node).kind = .declRef
  referenced : (tree.decl node).referenced = some target

/-- The name by which a reference mentions a declaration, and its full name. -/
def useOf (tree : DeclTree) (node target : DeclId) : NameUse :=
  ⟨Text.simpleName (tree.decl node).spelling, tree.referenceName target⟩

theorem RefersTo.nameUse?_eq_some_iff (refers : tree.RefersTo node target) {use : NameUse} :
    tree.nameUse? node = some use ↔
      (tree.useOf node target).Counts ∧ use = tree.useOf node target := by
  have isReference : ((tree.decl node).kind == .typeRef || (tree.decl node).kind == .templateRef ||
      (tree.decl node).kind == .declRef) = true := by
    simpa [or_assoc] using refers.reference
  have read : tree.nameUse? node =
      if ((tree.useOf node target).simple.isEmpty ||
        !Text.endsWith (tree.useOf node target).simple (tree.useOf node target).qualified ||
          (tree.useOf node target).simple == (tree.useOf node target).qualified) = true then none
      else some (tree.useOf node target) := by
    simp only [nameUse?, isReference, if_true, refers.referenced]
    rfl
  rw [read, NameUse.counts_iff]
  split
  case isTrue counted => simp [counted]
  case isFalse counts => simp [counts, eq_comm]

theorem exists_refersTo_of_nameUse? {use : NameUse} (found : tree.nameUse? node = some use) :
    ∃ target, tree.RefersTo node target := by
  dsimp only [nameUse?] at found
  split at found
  case isTrue reference =>
    cases referenced : (tree.decl node).referenced with
    | none => simp [referenced] at found
    | some target => exact ⟨target, by simpa [or_assoc] using reference, referenced⟩
  case isFalse => cases found

/-- The nodes of the default expression of a parameter. -/
def expressionNodes (tree : DeclTree) (param : DeclId) : List DeclId :=
  match tree.defaultExpression? param with
  | none => []
  | some expression => expression :: tree.descendants expression

theorem mem_nameUses_iff {use : NameUse} :
    use ∈ tree.nameUses param ↔
      ∃ node ∈ tree.expressionNodes param, ∃ target, tree.RefersTo node target ∧
        (tree.useOf node target).Counts ∧ use = tree.useOf node target := by
  have collected : ∀ (found uses : List NameUse), use ∈ found.foldl
      (fun uses use => if uses.contains use then uses else uses ++ [use]) uses ↔
        use ∈ uses ∨ use ∈ found := by
    intro found
    induction found with
    | nil => simp
    | cons first found ih =>
        intro uses
        rw [List.foldl_cons, ih]
        split <;> grind
  have counted : use ∈ tree.nameUses param ↔
      ∃ node ∈ tree.expressionNodes param, tree.nameUse? node = some use := by
    rw [nameUses, expressionNodes]
    cases tree.defaultExpression? param with
    | none => simp
    | some expression => simp only [collected, List.not_mem_nil, false_or, List.mem_filterMap]
  rw [counted]
  constructor
  · rintro ⟨node, member, found⟩
    obtain ⟨target, refers⟩ := exists_refersTo_of_nameUse? found
    exact ⟨node, member, target, refers, refers.nameUse?_eq_some_iff.mp found⟩
  · rintro ⟨node, member, target, refers, found⟩
    exact ⟨node, member, refers.nameUse?_eq_some_iff.mpr found⟩

theorem defaultValue?_eq_some {literal : String}
    (hasDefault : Text.defaultValue? (tree.decl param).extent = some literal) :
    tree.defaultValue? param = some (NameUse.qualifyAll literal (tree.nameUses param)) := by
  rw [defaultValue?, hasDefault, Option.map_some]

/-! ## Names that came through a macro -/

/-- Whether a reference to a declaration of another name counts as a use of that declaration. -/
structure Misreads (tree : DeclTree) (node target : DeclId) : Prop where
  refers : tree.RefersTo node target
  foreign : (tree.useOf node target).simple ≠ (tree.decl target).spelling
  counts : (tree.useOf node target).Counts

/-- A default value all of whose references go to declarations of other names is left as it is
exactly if no name of a misread reference stands free in it. -/
theorem foreign_names_are_left_iff {literal : String}
    (hasDefault : Text.defaultValue? (tree.decl param).extent = some literal)
    (foreign : ∀ node ∈ tree.expressionNodes param, ∀ target, tree.RefersTo node target →
      (tree.useOf node target).simple ≠ (tree.decl target).spelling) :
    tree.defaultValue? param = some literal ↔
      ∀ node ∈ tree.expressionNodes param, ∀ target, tree.Misreads node target →
        ∀ name ∈ (tree.useOf node target).names, ∀ place,
          ¬ Chars.FreeAt literal.toList name place := by
  have shorter : ∀ use ∈ tree.nameUses param, use.simple.length < use.qualified.length := by
    intro use isUse
    obtain ⟨node, -, target, -, counts, rfl⟩ := mem_nameUses_iff.mp isUse
    exact counts.length_lt
  rw [defaultValue?_eq_some hasDefault, Option.some_inj, NameUse.qualifyAll_eq_self_iff shorter]
  constructor
  · intro absent node member target misreads
    exact absent _ (mem_nameUses_iff.mpr
      ⟨node, member, target, misreads.refers, misreads.counts, rfl⟩)
  · intro absent use isUse
    obtain ⟨node, member, target, refers, counts, rfl⟩ := mem_nameUses_iff.mp isUse
    exact absent node member target ⟨refers, foreign node member target refers, counts⟩

/-- A parameter whose default value is written with a name that a macro turns into another one. -/
def macroTree (declared written : String) : DeclTree :=
  ((TreeBuilder.start "/src/unit.hpp").performAll
    [.add 0 .namespaceDecl "cv",
     .builtin "int",
     .var 1 declared 0,
     .function .functionDecl 1 "open" 0,
     .paramWithDefault 3 "mode" 0 written,
     .declRef 4 2]).tree.modifyDecl 5 fun decl => { decl with spelling := written }

/-- With one reference in an expression there is one that it goes to. -/
theorem RefersTo.eq_of_single {other goal : DeclId} (refers : tree.RefersTo other goal)
    (member : other ∈ tree.expressionNodes param) (nodes : tree.expressionNodes param = [node])
    (referenced : (tree.decl node).referenced = some target) : other = node ∧ goal = target := by
  rw [nodes, List.mem_singleton] at member
  subst member
  exact ⟨rfl, Option.some_inj.mp (refers.referenced.symm.trans referenced)⟩

theorem macro_name_is_left :
    (macroTree "_IO_2_1_stdout_" "stdout").defaultValue? 4 = some "stdout" := by
  obtain ⟨hasDefault, nodes, referenced, foreign, uncounted⟩ :
      Text.defaultValue? ((macroTree "_IO_2_1_stdout_" "stdout").decl 4).extent = some "stdout" ∧
        (macroTree "_IO_2_1_stdout_" "stdout").expressionNodes 4 = [5] ∧
        ((macroTree "_IO_2_1_stdout_" "stdout").decl 5).referenced = some 2 ∧
        ((macroTree "_IO_2_1_stdout_" "stdout").useOf 5 2).simple ≠
          ((macroTree "_IO_2_1_stdout_" "stdout").decl 2).spelling ∧
        ¬ ((macroTree "_IO_2_1_stdout_" "stdout").useOf 5 2).Counts := by
    decide +kernel
  apply (foreign_names_are_left_iff hasDefault ?_).mpr
  · intro node member target misreads
    obtain ⟨rfl, rfl⟩ := misreads.refers.eq_of_single member nodes referenced
    exact absurd misreads.counts uncounted
  · intro node member target refers
    obtain ⟨rfl, rfl⟩ := refers.eq_of_single member nodes referenced
    exact foreign

/-- The name that is written only ends the name that is declared, and is written out as that. -/
theorem macro_name_is_misread :
    (∀ node ∈ (macroTree "default_flags" "flags").expressionNodes 4, ∀ target,
      (macroTree "default_flags" "flags").RefersTo node target →
        ((macroTree "default_flags" "flags").useOf node target).simple ≠
          ((macroTree "default_flags" "flags").decl target).spelling) ∧
      Text.defaultValue? ((macroTree "default_flags" "flags").decl 4).extent = some "flags" ∧
      (macroTree "default_flags" "flags").defaultValue? 4 = some "cv::default_flags" := by
  obtain ⟨nodes, referenced, foreign, written⟩ :
      (macroTree "default_flags" "flags").expressionNodes 4 = [5] ∧
        ((macroTree "default_flags" "flags").decl 5).referenced = some 2 ∧
        ((macroTree "default_flags" "flags").useOf 5 2).simple ≠
          ((macroTree "default_flags" "flags").decl 2).spelling ∧
        Text.defaultValue? ((macroTree "default_flags" "flags").decl 4).extent = some "flags" ∧
        (macroTree "default_flags" "flags").defaultValue? 4 = some "cv::default_flags" := by
    decide +kernel
  refine ⟨?_, written⟩
  intro node member target refers
  obtain ⟨rfl, rfl⟩ := refers.eq_of_single member nodes referenced
  exact foreign

/-! ## Literals -/

/-- The literals of a default value are kept if no name by which the expression refers to something
touches one where it stands free. -/
theorem literals_are_kept {literal : String}
    (hasDefault : Text.defaultValue? (tree.decl param).extent = some literal)
    (apart : ∀ use ∈ tree.nameUses param, ∀ name ∈ use.names,
      ¬ Chars.TouchesLiteral literal.toList name) :
    ∃ result, tree.defaultValue? param = some result ∧
      Chars.HasInOrder ((Chars.literals literal.toList).map (·.2)) result.toList :=
  ⟨_, defaultValue?_eq_some hasDefault, NameUse.hasInOrder_literals apart⟩

/-- A parameter whose default value calls a function of its namespace. -/
def callTree (text : String) : DeclTree :=
  ((TreeBuilder.start "/src/unit.hpp").performAll
    [.add 0 .namespaceDecl "cv",
     .builtin "int",
     .function .functionDecl 1 "size" 0,
     .function .functionDecl 1 "open" 0,
     .paramWithDefault 3 "n" 0 text,
     .declRef 4 2]).tree

theorem other_literal_is_kept :
    ∃ result, (callTree "size(\"n\")").defaultValue? 4 = some result ∧
      Chars.HasInOrder ((Chars.literals "size(\"n\")".toList).map (·.2)) result.toList :=
  have facts : Text.defaultValue? ((callTree "size(\"n\")").decl 4).extent = some "size(\"n\")" ∧
      ∀ use ∈ (callTree "size(\"n\")").nameUses 4, ∀ name ∈ use.names,
        ¬ Chars.TouchesLiteral "size(\"n\")".toList name := by
    decide +kernel
  literals_are_kept facts.1 facts.2

/-- A word of a literal is written out as the name of the function that the expression calls. -/
theorem quoted_name_is_written_out :
    Text.defaultValue? ((callTree "size(\"size\")").decl 4).extent = some "size(\"size\")" ∧
      (callTree "size(\"size\")").defaultValue? 4 = some "cv::size(\"cv::size\")" ∧
      (Chars.literals "size(\"size\")".toList).map (·.2) = ["\"size\"".toList] ∧
      ¬ Chars.HasInOrder ["\"size\"".toList] "cv::size(\"cv::size\")".toList := by
  obtain ⟨hasDefault, uses, quoted, lost⟩ :
      Text.defaultValue? ((callTree "size(\"size\")").decl 4).extent = some "size(\"size\")" ∧
        (callTree "size(\"size\")").nameUses 4 = [⟨"size", "cv::size"⟩] ∧
        (Chars.literals "size(\"size\")".toList).map (·.2) = ["\"size\"".toList] ∧
        ¬ Chars.HasInOrder ["\"size\"".toList] "cv::size(\"cv::size\")".toList := by
    rw [Chars.hasInOrder_singleton]
    decide +kernel
  have accepted : (Edits.empty.pushAll (NameUse.offered "size(\"size\")".toList
      [⟨"size", "cv::size"⟩])).1.toList =
        [⟨0, 4, "cv::size".toList⟩, ⟨6, 10, "cv::size".toList⟩] := by
    decide +kernel
  refine ⟨hasDefault, ?_, quoted, lost⟩
  rw [defaultValue?_eq_some hasDefault, uses, Option.some_inj, ← String.toList_inj,
    NameUse.toList_qualifyAll, Edits.apply_of_pairwise _ accepted (by decide)]
  rfl

end DeclTree

end Bindery
