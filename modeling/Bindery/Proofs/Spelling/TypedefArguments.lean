import Bindery.Proofs.Spelling.ArgumentPlaces

/-!
# Typedefs in template arguments

The arguments of an instantiation are those that are written, unless the canonical form has more
scopes; then they are the canonical ones, in which written names are restored.  Restoring goes into
the first list of each argument and knows builtin types by their whole text, so a typedef of such a
type is lost behind another list, and wherever something stands around it.
-/

set_option autoImplicit false

namespace Bindery

namespace Spelling

open Text

/-! ## Canonical arguments -/

/-- The arguments of the canonical form are taken over. -/
def TakesCanonical (spelling canonical : String) : Prop :=
  ∃ args, listAt? 0 spelling = some args ∧ AddsScopes args canonical

/-- The argument at a place stays as it is written.  Where the canonical arguments are taken over,
those in the first list do so only at the end of a way through first lists, and only for a builtin
type. -/
def KeepsWritten (spelling canonical : String) (number : Nat) (path : List (Nat × Nat))
    (core : String) : Prop :=
  TakesCanonical spelling canonical → number = 0 → IsFirstWay path ∧ isPrimitive core = true

theorem argumentAt?_withCanonicalArgs {spelling canonical own core : String}
    (differ : own ≠ core) (plain : splitTemplate own = none) (bracketed : IsBracketed spelling)
    (coreBracketed : IsBracketed canonical) {number index : Nat} {path : List (Nat × Nat)}
    (isOwn : argumentAt? ((number, index) :: path) spelling = some own)
    (isCore : argumentAt? ((number, index) :: path) canonical = some core) :
    ∃ shown,
      argumentAt? ((number, index) :: path) (withCanonicalArgs spelling canonical) = some shown ∧
        (KeepsWritten spelling canonical number path core → shown = own) ∧
        (¬ KeepsWritten spelling canonical number path core → shown = core) := by
  obtain ⟨ownText, isOwnList, atOwn⟩ := Option.bind_eq_some_iff.mp isOwn
  obtain ⟨coreText, isCoreList, atCore⟩ := Option.bind_eq_some_iff.mp isCore
  obtain ⟨base, args, rest, split⟩ := exists_of_listAt? isOwnList
  obtain ⟨coreBase, coreArgs, coreRest, coreSplit⟩ := exists_of_listAt? isCoreList
  have first := listAt?_zero split
  by_cases adds : AddsScopes args canonical
  case neg =>
    refine ⟨own, ?_, fun _ => rfl, fun loses => absurd ?_ loses⟩
    · rw [withCanonicalArgs_of_not_adds split adds]
      exact isOwn
    · rintro ⟨list, isList, more⟩
      cases isList.symm.trans first
      exact absurd more adds
  case pos =>
    have takes : TakesCanonical spelling canonical := ⟨args, first, adds⟩
    have ownList := bracketed.isBracketedList split
    have coreList := coreBracketed.isBracketedList coreSplit
    have restored : splitTemplate (withCanonicalArgs spelling canonical) =
        some (base, restoreArgs args coreArgs, rest) := by
      rw [withCanonicalArgs_of_adds split adds coreSplit]
      exact splitTemplate_append (Text.splitTemplate_eq_some_iff.mp split).2.1
        (isNested_restoreArgsTo _ ownList coreList).angles rest
    rw [argumentAt?_cons]
    cases number with
    | zero =>
        rw [listAt?_zero split, Option.some_inj] at isOwnList
        rw [listAt?_zero coreSplit, Option.some_inj] at isCoreList
        rw [← isOwnList] at atOwn
        rw [← isCoreList] at atCore
        refine ⟨if IsFirstWay path ∧ isPrimitive core = true then own else core, ?_,
          fun keeps => if_pos (keeps takes rfl), fun loses => if_neg fun kept => ?_⟩
        · rw [listAt?_zero restored, Option.bind_some]
          exact argumentIn?_restoreArgs differ plain ownList coreList atOwn atCore
        · exact loses fun _ _ => kept
    | succ number =>
        refine ⟨own, ?_, fun _ => rfl, fun loses => absurd (fun _ => nofun) loses⟩
        rw [listAt?_succ split] at isOwnList
        rw [listAt?_succ restored, isOwnList]
        exact atOwn

section

variable {front : String} (plain : '<' ∉ front.toList)

include plain

theorem isBracketed_prepend {spelling : String} (bracketed : IsBracketed spelling)
    {number : Nat} {args : String} (found : listAt? number spelling = some args) :
    IsBracketed (front ++ spelling) := by
  cases bracketed with
  | plain none =>
      obtain ⟨base, first, rest, split⟩ := exists_of_listAt? found
      cases none.symm.trans split
  | list split arguments inner behind =>
      exact .list (splitTemplate_prepend plain split) arguments inner behind

theorem takesCanonical_prepend {spelling canonical : String} {number : Nat} {args : String}
    (found : listAt? number spelling = some args) :
    TakesCanonical (front ++ spelling) canonical ↔ TakesCanonical spelling canonical := by
  obtain ⟨base, first, rest, split⟩ := exists_of_listAt? found
  rw [TakesCanonical, TakesCanonical, listAt?_zero split,
    listAt?_zero (splitTemplate_prepend plain split)]

end

end Spelling

/-! ## Typedefs of builtin types -/

/-- The words of the type that a typedef stands for. -/
def DeclTree.underlyingWords (tree : DeclTree) (typedef : DeclId) : List String :=
  match (tree.decl typedef).underlyingType with
  | some type => Text.words (tree.type type).spelling
  | none => []

/-- No type is registered under a name with one of some words in it. -/
def DeclTree.SparesWords (tree : DeclTree) (words : List String) : Prop :=
  ∀ id, TypeRegistries.namesType tree id = true →
    ∀ word ∈ words, word ∉ Text.words (tree.qualifiedName id)

namespace Speller

/-- A text names a typedef and shows nothing of the type that it stands for. -/
structure NamesTypedef (tree : DeclTree) (typedef : DeclId) (s : String) : Prop where
  name : (tree.decl typedef).spelling ∈ Text.words s
  hidden : ∀ word ∈ tree.underlyingWords typedef, word ∉ Text.words s

/-- An instantiation that is written with a typedef of a builtin type in the argument at a place,
where the canonical form shows the builtin type.  In the written argument `own` no further list
stands around the typedef. -/
structure WritesTypedef (tree : DeclTree) (type : TypeId) (typedef : DeclId)
    (place : List (Nat × Nat)) (own core : String) : Prop where
  byName : (tree.type type).kind.isByName = true
  behind : ∃ id, tree.typeDeclaration type = some id ∧ (tree.decl id).kind.isRecord = true ∧
    '<' ∉ (tree.qualifiedName id).toList
  isTypedef : (tree.decl typedef).kind.isTypedef = true
  builtin : ∃ underlying, (tree.decl typedef).underlyingType = some underlying ∧
    (tree.type underlying).kind = .builtin
  bracketed : Text.IsBracketed (tree.type type).spelling
  coreBracketed : Text.IsBracketed (tree.type (tree.canonical type)).spelling
  written : Text.argumentAt? place (tree.type type).spelling = some own
  canonical : Text.argumentAt? place (tree.type (tree.canonical type)).spelling = some core
  names : NamesTypedef tree typedef own
  plain : Text.splitTemplate own = none
  shows : ∃ word ∈ tree.underlyingWords typedef, word ∈ Text.words core

variable {tree : DeclTree} {type : TypeId} {typedef : DeclId} {own core : String}

theorem NamesTypedef.qualifyNames (spares : tree.SparesWords (tree.underlyingWords typedef))
    {s : String} (names : NamesTypedef tree typedef s) :
    NamesTypedef tree typedef ((TypeRegistries.ofTree tree).qualifyNames s) := by
  refine ⟨TypeRegistries.mem_words_qualifyNames names.name, fun word isWord member => ?_⟩
  rcases TypeRegistries.mem_words_of_qualifyNames member with before | ⟨id, named, written⟩
  · exact names.hidden word isWord before
  · exact spares id named word isWord written

/-- A typedef of a builtin type in the arguments of an instantiation is spelled exactly if the
written argument stays: with the canonical arguments taken over, only in first lists, and only
where the canonical form of the whole argument is a builtin type. -/
theorem typedef_in_args_is_kept_iff (paths : tree.HasPathNames)
    (spares : tree.SparesWords (tree.underlyingWords typedef)) {number index : Nat}
    {path : List (Nat × Nat)}
    (writes : WritesTypedef tree type typedef ((number, index) :: path) own core) :
    (∃ shown,
      Text.argumentAt? ((number, index) :: path) ((ofTree tree).spell type) = some shown ∧
        NamesTypedef tree typedef shown) ↔
      Spelling.KeepsWritten (tree.type type).spelling
        (tree.type (tree.canonical type)).spelling number path core := by
  obtain ⟨id, behind, isRecord, outside⟩ := writes.behind
  obtain ⟨word, isWord, inCore⟩ := writes.shows
  have differ : own ≠ core := by
    rintro rfl
    exact writes.names.hidden word isWord inCore
  obtain ⟨args, isList, -⟩ := Option.bind_eq_some_iff.mp writes.written
  obtain ⟨front, plain, prefixed⟩ :=
    Spelling.exists_prefixScope_eq (tree.type type).spelling outside
  obtain ⟨left, leftPlain, const⟩ := Spelling.exists_withConst_eq (tree.type type).isConst
    ((ofTree tree).spellRecord type id)
  obtain ⟨arg, isArg, keeps, loses⟩ := Spelling.argumentAt?_withCanonicalArgs differ writes.plain
    (Spelling.isBracketed_prepend plain writes.bracketed isList) writes.coreBracketed
    (Text.argumentAt?_prepend plain writes.written) writes.canonical
  rw [Spelling.KeepsWritten, Spelling.takesCanonical_prepend plain isList] at keeps loses
  have spelled : Text.argumentAt? ((number, index) :: path) ((ofTree tree).spell type) =
      some ((TypeRegistries.ofTree tree).qualifyNames arg) := by
    rw [spell_of_isRecord writes.byName behind isRecord, const]
    refine Text.argumentAt?_prepend leftPlain ?_
    rw [spellRecord]
    simp only [ofTree, prefixed]
    exact TypeRegistries.argumentAt?_qualifyNames paths _ isArg
  rw [spelled]
  constructor
  · rintro ⟨shown, same, names⟩
    by_contra lost
    cases same
    rw [loses lost] at names
    exact names.hidden word isWord (TypeRegistries.mem_words_qualifyNames inCore)
  · intro kept
    refine ⟨_, rfl, ?_⟩
    rw [keeps kept]
    exact writes.names.qualifyNames spares

/-- An instantiation whose second argument is a typedef with `behind` after it. -/
def pairTree (behind : String) : DeclTree :=
  ((TreeBuilder.start "/src/unit.hpp").performAll
    [.add 0 .namespaceDecl "cv",
     .builtin "unsigned long",
     .newTypedef .typedefDecl 0 "size_t" 0,
     .add 1 .classDecl "Range",
     .classTemplate 1 "Pair" ["A", "B"],
     .specialization 4 ("cv::Range, unsigned long" ++ behind),
     .recordAs 7 ("Pair<Range, size_t" ++ behind ++ ">")]).tree

theorem pairTree_writesTypedef {behind : String} (isBehind : behind ∈ ["", " *"]) :
    WritesTypedef (pairTree behind) 2 2 [(0, 1)] ("size_t" ++ behind)
      ("unsigned long" ++ behind) := by
  have flat : ∀ behind ∈ ["", " *"], Text.IsFlat ((pairTree behind).type 2).spelling ∧
      Text.IsFlat ((pairTree behind).type ((pairTree behind).canonical 2)).spelling := by
    decide +kernel
  refine ⟨?_, ⟨7, ?_⟩, ?_, ⟨0, ?_⟩, (flat behind isBehind).1.isBracketed,
    (flat behind isBehind).2.isBracketed, ?_, ?_, ⟨?_, ?_⟩, ?_, ?_⟩
  all_goals
    revert behind
    decide +kernel

theorem pairTree_hasPathNames {behind : String} (isBehind : behind ∈ ["", " *"]) :
    (pairTree behind).HasPathNames ∧
      (pairTree behind).SparesWords ((pairTree behind).underlyingWords 2) := by
  have inside : ∀ behind ∈ ["", " *"], ∀ id < (pairTree behind).size,
      TypeRegistries.namesType (pairTree behind) id = true →
        (((pairTree behind).qualifiedName id).toList.all fun c =>
          Chars.isIdentChar c = true ∨ c = ':') = true ∧
        ∀ word ∈ (pairTree behind).underlyingWords 2,
          word ∉ Text.words ((pairTree behind).qualifiedName id) := by
    decide +kernel
  have each := fun id names =>
    inside behind isBehind id (TypeRegistries.lt_size_of_namesType names) names
  exact ⟨fun id names => List.all_iff_forall_prop.mp (each id names).1,
    fun id names => (each id names).2⟩

theorem typedef_alone_is_kept :
    WritesTypedef (pairTree "") 2 2 [(0, 1)] "size_t" "unsigned long" ∧
      ∃ shown, Text.argumentAt? [(0, 1)] ((ofTree (pairTree "")).spell 2) = some shown ∧
        NamesTypedef (pairTree "") 2 shown := by
  have present : "" ∈ ["", " *"] := by decide
  have writes := pairTree_writesTypedef present
  obtain ⟨paths, spares⟩ := pairTree_hasPathNames present
  refine ⟨writes, (typedef_in_args_is_kept_iff paths spares writes).mpr fun _ _ => ?_⟩
  decide +kernel

/-- The canonical form of a pointer to a typedef is not the text of a builtin type. -/
theorem pointer_to_typedef_is_lost :
    WritesTypedef (pairTree " *") 2 2 [(0, 1)] "size_t *" "unsigned long *" ∧
      (ofTree (pairTree " *")).spell 2 = "cv::Pair<cv::Range, unsigned long *>" ∧
      ¬ ∃ shown, Text.argumentAt? [(0, 1)] ((ofTree (pairTree " *")).spell 2) = some shown ∧
        NamesTypedef (pairTree " *") 2 shown := by
  have spelled : (ofTree (pairTree " *")).spell 2 = "cv::Pair<cv::Range, unsigned long *>" := by
    decide +kernel
  have there : Text.argumentAt? [(0, 1)] "cv::Pair<cv::Range, unsigned long *>" =
      some "unsigned long *" := by
    decide +kernel
  refine ⟨pairTree_writesTypedef (by decide), spelled, ?_⟩
  rintro ⟨shown, isShown, names⟩
  rw [spelled, there, Option.some_inj] at isShown
  subst isShown
  exact names.hidden "long" (by decide +kernel) (by decide +kernel)

end Speller

end Bindery
