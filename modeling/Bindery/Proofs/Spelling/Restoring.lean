import Bindery.Proofs.Text.Brackets
import Bindery.Proofs.Text.InstanceName
import Bindery.Spelling.Qualify

/-!
# Written and canonical arguments

Printed arguments are trees: a name, or a name with a list of arguments.  Restoring written names in
canonical arguments reads both lists back at every level, so on printed lists it is a merge of the
trees, and a written name survives wherever the canonical list shows a builtin type.
-/

set_option autoImplicit false

namespace Bindery

namespace Text

/-! ## Trees of arguments -/

/-- A name as it stands in an argument: something shows, no white space is around it, and there are
no brackets or commas in it. -/
@[ext]
structure ArgumentName where
  text : String
  nonempty : text ≠ ""
  trimmed : trim text = text
  plain : ∀ c ∈ text.toList, c ∉ ['<', '>', '(', ')', ',']

/-- An argument of a template: a name alone or with arguments of its own. -/
inductive ArgumentTree
  | leaf (name : ArgumentName)
  | node (name : ArgumentName) (args : List ArgumentTree)

namespace ArgumentTree

mutual

/-- An argument as it is printed. -/
def text : ArgumentTree → String
  | leaf name => name.text
  | node name args => name.text ++ "<" ++ joinArgs (texts args) ++ ">"

def texts : List ArgumentTree → List String
  | [] => []
  | arg :: args => arg.text :: texts args

end

/-- A list of arguments as it is printed. -/
def print (args : List ArgumentTree) : String :=
  joinArgs (texts args)

def args : ArgumentTree → List ArgumentTree
  | leaf _ => []
  | node _ args => args

/-- The argument that is reached through the lists of an argument. -/
def inner? : List Nat → ArgumentTree → Option ArgumentTree
  | [], tree => some tree
  | index :: path, tree => tree.args[index]?.bind (inner? path)

/-- The argument at a path into a list. -/
def at? : List Nat → List ArgumentTree → Option ArgumentTree
  | [], _ => none
  | index :: path, args => args[index]?.bind (inner? path)

mutual

/-- What stands for a canonical argument: the written one if the canonical one is a builtin type,
and a merge of both if both have lists. -/
def mergeArg : Option ArgumentTree → ArgumentTree → ArgumentTree
  | none, core => core
  | some own, core =>
      if own.text = core.text then core
      else if isPrimitive core.text then own
      else
        match own, core with
        | node _ ownArgs, node name coreArgs => node name (merge ownArgs coreArgs)
        | _, core => core

/-- The canonical arguments, each merged with the written one in its place. -/
def merge : List ArgumentTree → List ArgumentTree → List ArgumentTree
  | _, [] => []
  | written, core :: canonical => mergeArg written.head? core :: merge written.tail canonical

end

end ArgumentTree

/-! ## Reading back -/

/-- No list stands in a builtin type. -/
theorem splitTemplate_of_isPrimitive {s : String} (primitive : isPrimitive s = true) :
    splitTemplate s = none :=
  splitTemplate_eq_none (not_mem_of_isPrimitive (by decide) (by decide) primitive)

theorem length_le_joinArgs {args : List String} {arg : String} (member : arg ∈ args) :
    arg.length ≤ (joinArgs args).length := by
  rw [← String.length_toList, ← String.length_toList, toList_joinArgs]
  exact (Chars.isInfix_intercalate _ (List.mem_map_of_mem member)).length_le

namespace ArgumentTree

theorem texts_eq_map (args : List ArgumentTree) : texts args = args.map text := by
  induction args with
  | nil => rfl
  | cons arg args ih => rw [texts, ih, List.map_cons]

theorem toList_text_node (name : ArgumentName) (args : List ArgumentTree) :
    (node name args).text.toList =
      name.text.toList ++ '<' :: ((print args).toList ++ ['>']) := by
  simp [text, print]

theorem isArgument_leaf (name : ArgumentName) : IsArgument name.text := by
  refine Chars.isArgument_iff_isEnclosed.mpr ⟨?_, ?_, ?_⟩
  · exact fun empty => name.nonempty (String.toList_eq_nil_iff.mp empty)
  · have same := congrArg String.toList name.trimmed
    rwa [trim, String.toList_ofList] at same
  · refine Chars.isEnclosed_of_plain (.of_neutral fun c member => ?_) fun comma => ?_
    · have other := name.plain c member
      simp only [List.mem_cons, not_or] at other
      simp [Chars.angleNesting, Chars.parenNesting, other]
    · exact name.plain ',' comma (by simp)

theorem not_mem_name (name : ArgumentName) : '<' ∉ name.text.toList := fun angle =>
  name.plain '<' angle (by simp)

mutual

theorem isArgument_text : ∀ tree : ArgumentTree, IsArgument tree.text
  | leaf name => isArgument_leaf name
  | node name args => by
      have named := isArgument_leaf name
      have list := isNested_joinArgs (isArgument_texts args)
      rw [IsArgument, toList_text_node]
      exact Chars.IsArgument.append_list named list

theorem isArgument_texts : ∀ args : List ArgumentTree, ∀ arg ∈ texts args, IsArgument arg
  | [] => nofun
  | tree :: args => by
      intro arg member
      rcases List.mem_cons.mp member with rfl | behind
      · exact isArgument_text tree
      · exact isArgument_texts args arg behind

end

theorem templateArgs_print (args : List ArgumentTree) : templateArgs (print args) = texts args :=
  templateArgs_joinArgs (isArgument_texts args)

theorem splitTemplate_leaf (name : ArgumentName) : splitTemplate (leaf name).text = none :=
  splitTemplate_eq_none (not_mem_name name)

theorem splitTemplate_node (name : ArgumentName) (args : List ArgumentTree) :
    splitTemplate (node name args).text = some (name.text, print args, "") := by
  have parts := splitTemplate_joinArgs (not_mem_name name) (isArgument_texts args) ""
  rwa [String.append_empty] at parts

mutual

/-- An argument is told from its text. -/
theorem text_injective : ∀ left right : ArgumentTree, left.text = right.text → left = right
  | leaf name, leaf other => fun same => by
      rw [ArgumentName.ext_iff.mpr same]
  | leaf name, node other args => fun same => by
      have split := splitTemplate_node other args
      rw [← same, splitTemplate_leaf] at split
      cases split
  | node name args, leaf other => fun same => by
      have split := splitTemplate_node name args
      rw [same, splitTemplate_leaf] at split
      cases split
  | node name args, node other others => fun same => by
      have split := splitTemplate_node name args
      rw [same, splitTemplate_node, Option.some.injEq, Prod.mk.injEq, Prod.mk.injEq] at split
      obtain ⟨names, lists, -⟩ := split
      have read := congrArg templateArgs lists.symm
      rw [templateArgs_print, templateArgs_print] at read
      rw [ArgumentName.ext_iff.mpr names.symm, texts_injective args others read]

theorem texts_injective : ∀ left right : List ArgumentTree, texts left = texts right → left = right
  | [], [] => fun _ => rfl
  | [], _ :: _ => nofun
  | _ :: _, [] => nofun
  | tree :: args, other :: others => fun same => by
      obtain ⟨first, behind⟩ := List.cons_eq_cons.mp same
      rw [text_injective tree other first, texts_injective args others behind]

end

/-! ## Merged lists -/

theorem getElem?_merge (written canonical : List ArgumentTree) (index : Nat) :
    (merge written canonical)[index]? = canonical[index]?.map (mergeArg written[index]?) := by
  induction canonical generalizing written index with
  | nil => rfl
  | cons core canonical ih =>
      cases index with
      | zero => cases written <;> rfl
      | succ index => cases written <;> exact ih _ index

theorem mergeArg_of_text_eq {own core : ArgumentTree} (same : own.text = core.text) :
    mergeArg (some own) core = core := by
  rw [mergeArg.eq_def]
  exact if_pos same

theorem mergeArg_of_isPrimitive {own core : ArgumentTree} (differ : own.text ≠ core.text)
    (primitive : isPrimitive core.text = true) : mergeArg (some own) core = own := by
  rw [mergeArg.eq_def]
  exact (if_neg differ).trans (if_pos primitive)

theorem mergeArg_node {name other : ArgumentName} {written canonical : List ArgumentTree}
    (differ : (node other written).text ≠ (node name canonical).text)
    (shown : isPrimitive (node name canonical).text ≠ true) :
    mergeArg (some (node other written)) (node name canonical) =
      node name (merge written canonical) := by
  rw [mergeArg.eq_def]
  exact (if_neg differ).trans (if_neg shown)

theorem inner?_mergeArg (path : List Nat) : ∀ written canonical : ArgumentTree,
    ∀ own core, inner? path written = some own → inner? path canonical = some core →
      isPrimitive core.text = true → inner? path (mergeArg (some written) canonical) = some own := by
  induction path with
  | nil =>
      intro written canonical own core isOwn isCore primitive
      cases isOwn
      cases isCore
      by_cases same : written.text = canonical.text
      · rw [mergeArg_of_text_eq same, text_injective written canonical same]
        rfl
      · rw [mergeArg_of_isPrimitive same primitive]
        rfl
  | cons index path ih =>
      intro written canonical own core isOwn isCore primitive
      by_cases same : written.text = canonical.text
      · rw [mergeArg_of_text_eq same, ← text_injective written canonical same]
        exact isOwn
      · cases written with
        | leaf name => cases isOwn
        | node other written =>
            cases canonical with
            | leaf name => cases isCore
            | node name canonical =>
                have shown : isPrimitive (node name canonical).text ≠ true := fun builtin => by
                  have split := splitTemplate_node name canonical
                  rw [splitTemplate_of_isPrimitive builtin] at split
                  cases split
                obtain ⟨ownArg, isOwnArg, insideOwn⟩ := Option.bind_eq_some_iff.mp isOwn
                obtain ⟨coreArg, isCoreArg, insideCore⟩ := Option.bind_eq_some_iff.mp isCore
                rw [args] at isOwnArg isCoreArg
                rw [mergeArg_node same shown, inner?, args, getElem?_merge, isCoreArg, isOwnArg]
                exact ih ownArg coreArg own core insideOwn insideCore primitive

theorem at?_merge {path : List Nat} {written canonical : List ArgumentTree}
    {own core : ArgumentTree} (isOwn : at? path written = some own)
    (isCore : at? path canonical = some core) (primitive : isPrimitive core.text = true) :
    at? path (merge written canonical) = some own := by
  cases path with
  | nil => cases isOwn
  | cons index path =>
      obtain ⟨ownArg, isOwnArg, insideOwn⟩ := Option.bind_eq_some_iff.mp isOwn
      obtain ⟨coreArg, isCoreArg, insideCore⟩ := Option.bind_eq_some_iff.mp isCore
      rw [at?, getElem?_merge, isCoreArg, isOwnArg]
      exact inner?_mergeArg path ownArg coreArg own core insideOwn insideCore primitive

end ArgumentTree

end Text

namespace Spelling

open Text Text.ArgumentTree

/-! ## Restoring -/

/-- What stands for a canonical argument, by the written one in its place. -/
def restoreArg (depth : Nat) (own? : Option String) (core : String) : String :=
  match own? with
  | none => core
  | some own =>
      if own = core then core
      else if isPrimitive core then own
      else
        match splitTemplate own, splitTemplate core with
        | some (_, ownArgs, _), some (base, coreArgs, rest) =>
            base ++ "<" ++ restoreArgsTo depth ownArgs coreArgs ++ ">" ++ rest
        | _, _ => core

theorem restoreArgsTo_succ (depth : Nat) (written canonical : String) :
    restoreArgsTo (depth + 1) written canonical =
      joinArgs ((templateArgs canonical).mapIdx fun index =>
        restoreArg depth (templateArgs written)[index]?) :=
  rfl

theorem restoreArg_text {depth : Nat}
    (lists : ∀ written canonical, (print canonical).length < depth →
      restoreArgsTo depth (print written) (print canonical) = print (merge written canonical))
    (own? : Option ArgumentTree) {core : ArgumentTree} (short : core.text.length ≤ depth) :
    restoreArg depth (own?.map text) core.text = (mergeArg own? core).text := by
  cases own? with
  | none => rw [mergeArg, Option.map_none, restoreArg]
  | some own =>
      rw [Option.map_some, restoreArg, mergeArg.eq_def]
      simp only [apply_ite text]
      refine if_congr Iff.rfl rfl (if_congr Iff.rfl rfl ?_)
      cases own with
      | leaf name => rw [splitTemplate_leaf]
      | node other written =>
          cases core with
          | leaf name => rw [splitTemplate_leaf, splitTemplate_node]
          | node name canonical =>
              have inside : (print canonical).length < depth := by
                have size := congrArg List.length (toList_text_node name canonical)
                simp only [List.length_append, List.length_cons, String.length_toList] at size
                omega
              rw [splitTemplate_node, splitTemplate_node]
              simp only [lists written canonical inside, String.append_empty]
              rfl

theorem restoreArgsTo_print (depth : Nat) : ∀ written canonical,
    (print canonical).length < depth →
      restoreArgsTo depth (print written) (print canonical) = print (merge written canonical) := by
  induction depth with
  | zero => exact fun _ _ short => absurd short (Nat.not_lt_zero _)
  | succ depth ih =>
      intro written canonical short
      rw [restoreArgsTo_succ, templateArgs_print, templateArgs_print, print]
      refine congrArg joinArgs (List.ext_getElem? fun index => ?_)
      rw [List.getElem?_mapIdx, texts_eq_map, texts_eq_map, texts_eq_map, List.getElem?_map,
        List.getElem?_map, List.getElem?_map, getElem?_merge, Option.map_map, Option.map_map]
      refine Option.map_congr fun core member => ?_
      have whole := List.mem_of_getElem? (Option.mem_def.mp member)
      have within : core.text.length ≤ (print canonical).length :=
        length_le_joinArgs (texts_eq_map canonical ▸ List.mem_map_of_mem whole)
      exact restoreArg_text ih written[index]? (by omega)

/-- On printed arguments, restoring is a merge of the trees, index by index, and at every path where
the canonical argument is a builtin type the written one survives. -/
theorem restored_args_are_merged (written canonical : List ArgumentTree) :
    restoreArgs (print written) (print canonical) = print (merge written canonical) ∧
      (∀ index : Nat, (merge written canonical)[index]? =
        canonical[index]?.map (mergeArg written[index]?)) ∧
      ∀ path own core, at? path written = some own → at? path canonical = some core →
        isPrimitive core.text = true → at? path (merge written canonical) = some own :=
  ⟨restoreArgsTo_print _ written canonical (Nat.lt_succ_self _), getElem?_merge written canonical,
    fun _ _ _ isOwn isCore primitive => at?_merge isOwn isCore primitive⟩

section

/-- The name of a typedef, a builtin type, and the names around them in both lists. -/
def sizeName : ArgumentName :=
  ⟨"size_t", by decide, by decide +kernel, List.all_iff_forall_prop.mp (by decide)⟩
def builtinName : ArgumentName :=
  ⟨"unsigned long", by decide, by decide +kernel, List.all_iff_forall_prop.mp (by decide)⟩
def boxName : ArgumentName :=
  ⟨"Box", by decide, by decide +kernel, List.all_iff_forall_prop.mp (by decide)⟩
def scopedBoxName : ArgumentName :=
  ⟨"cv::Box", by decide, by decide +kernel, List.all_iff_forall_prop.mp (by decide)⟩

/-- A typedef inside the list of an argument, behind an argument that both lists have. -/
theorem nested_typedef_is_merged :
    restoreArgs "Box, Box<size_t>" "cv::Box, cv::Box<unsigned long, Box>" =
        "cv::Box, cv::Box<size_t, Box>" ∧
      at? [1, 0] (merge [leaf boxName, node boxName [leaf sizeName]]
        [leaf scopedBoxName, node scopedBoxName [leaf builtinName, leaf boxName]]) =
          some (leaf sizeName) := by
  have merged := restored_args_are_merged [leaf boxName, node boxName [leaf sizeName]]
    [leaf scopedBoxName, node scopedBoxName [leaf builtinName, leaf boxName]]
  refine ⟨?_, merged.2.2 [1, 0] (leaf sizeName) (leaf builtinName) rfl rfl (by decide +kernel)⟩
  decide +kernel

end

end Spelling

end Bindery
