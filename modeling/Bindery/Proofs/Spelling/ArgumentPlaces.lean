import Bindery.Proofs.Spelling.Qualification
import Bindery.Proofs.Spelling.Restoring
import Bindery.Proofs.Text.ListRewriting
import Bindery.Proofs.Text.NameUses
import Bindery.Proofs.Text.Places
import Bindery.Proofs.Text.Words

/-!
# Places of arguments in spellings

What becomes of the argument at a place when a spelling is worked on: names are written out in it
where it stands, a text put in front does not move it, and where canonical arguments are taken over
the written one is restored in the first list of each argument if it stands for a builtin type.
-/

set_option autoImplicit false

namespace Bindery

/-- The qualified names of registered types are made of the characters of names and of colons. -/
def DeclTree.HasPathNames (tree : DeclTree) : Prop :=
  ∀ id, TypeRegistries.namesType tree id = true →
    ∀ c ∈ (tree.qualifiedName id).toList, Chars.isIdentChar c = true ∨ c = ':'

namespace TypeRegistries

variable {tree : DeclTree}

/-! ## Places when names are written out -/

theorem keepsLists_meaning (paths : tree.HasPathNames) :
    Chars.KeepsLists (ofTree tree).meaning := by
  intro word text known
  obtain ⟨full, longer, rfl⟩ := Option.map_eq_some_iff.mp known
  obtain ⟨-, id, names, rfl, -, whole⟩ := exists_of_longerName? longer
  refine ⟨by rw [whole]; simp, fun c member => ?_⟩
  rcases paths id names c member with ident | rfl
  · exact ⟨Chars.isBlank_eq_false_of_isIdentChar ident, Chars.isMark_eq_false_of_isIdentChar ident⟩
  · decide

theorem qualifyNames_eq_ofList (spelling : String) :
    (ofTree tree).qualifyNames spelling =
      String.ofList (Chars.replaceWords (ofTree tree).meaning [] spelling.toList) := by
  rw [← toList_qualifyNames, String.ofList_toList]

theorem splitTemplate_qualifyNames (paths : tree.HasPathNames) {s base args rest : String}
    (split : Text.splitTemplate s = some (base, args, rest)) :
    Text.splitTemplate ((ofTree tree).qualifyNames s) =
      some ((ofTree tree).qualifyNames base, (ofTree tree).qualifyNames args,
        (ofTree tree).qualifyNames rest) := by
  obtain ⟨⟨front, inside, behind⟩, found, same⟩ := Option.map_eq_some_iff.mp split
  cases same
  rw [Text.splitTemplate, toList_qualifyNames,
    (keepsLists_meaning paths).splitTemplate_replaceWords found]
  simp only [Option.map_some, qualifyNames_eq_ofList, String.toList_ofList]

theorem templateArgs_qualifyNames (paths : tree.HasPathNames) (args : String) :
    Text.templateArgs ((ofTree tree).qualifyNames args) =
      (Text.templateArgs args).map (ofTree tree).qualifyNames := by
  rw [Text.templateArgs, toList_qualifyNames,
    (keepsLists_meaning paths).templateArgs_replaceWords, Text.templateArgs, List.map_map,
    List.map_map]
  simp only [Function.comp_def, qualifyNames_eq_ofList, String.toList_ofList]

theorem listAt?_qualifyNames (paths : tree.HasPathNames) (number : Nat) :
    ∀ {s args : String}, Text.listAt? number s = some args →
      Text.listAt? number ((ofTree tree).qualifyNames s) =
        some ((ofTree tree).qualifyNames args) := by
  induction number with
  | zero =>
      intro s args found
      obtain ⟨base, first, rest, split⟩ := Text.exists_of_listAt? found
      rw [Text.listAt?_zero split] at found
      cases found
      exact Text.listAt?_zero (splitTemplate_qualifyNames paths split)
  | succ number ih =>
      intro s args found
      obtain ⟨base, first, rest, split⟩ := Text.exists_of_listAt? found
      rw [Text.listAt?_succ split] at found
      rw [Text.listAt?_succ (splitTemplate_qualifyNames paths split)]
      exact ih found

/-- Writing names out leaves every argument in its place. -/
theorem argumentAt?_qualifyNames (paths : tree.HasPathNames) (path : List (Nat × Nat)) :
    ∀ {s arg : String}, Text.argumentAt? path s = some arg →
      Text.argumentAt? path ((ofTree tree).qualifyNames s) =
        some ((ofTree tree).qualifyNames arg) := by
  induction path with
  | nil =>
      intro s arg found
      cases found
      rfl
  | cons step path ih =>
      intro s arg found
      obtain ⟨args, isList, inside⟩ := Option.bind_eq_some_iff.mp found
      obtain ⟨inner, isInner, behind⟩ := Option.bind_eq_some_iff.mp inside
      rw [Text.argumentAt?, listAt?_qualifyNames paths step.1 isList, Option.bind_some,
        templateArgs_qualifyNames paths, List.getElem?_map, isInner]
      exact ih behind

/-! ## Words when names are written out -/

theorem mem_words_meaning {run text : List Char} (nonempty : run ≠ [])
    (ident : ∀ c ∈ run, Chars.isIdentChar c = true)
    (known : (ofTree tree).meaning run = some text) : run ∈ Chars.words text := by
  obtain ⟨full, longer, rfl⟩ := Option.map_eq_some_iff.mp known
  obtain ⟨-, id, -, -, -, rfl⟩ := exists_of_longerName? longer
  have colon : Chars.isIdentChar ':' = false := by decide
  have apart : Chars.StartsApart (':' :: ':' :: run) := by
    intro c first
    cases first
    exact colon
  have parts : (Text.joinScope (tree.scopeComponents id) ++ "::" ++ String.ofList run).toList =
      (Text.joinScope (tree.scopeComponents id)).toList ++ ':' :: ':' :: run := by
    simp
  rw [parts, Chars.words_append _ apart, Chars.words_plain colon, Chars.words_plain colon,
    Chars.words_eq_self nonempty ident]
  exact List.mem_append_right _ (List.mem_singleton_self run)

theorem mem_words_qualifyNames {s word : String} (member : word ∈ Text.words s) :
    word ∈ Text.words ((ofTree tree).qualifyNames s) := by
  obtain ⟨run, isRun, rfl⟩ := List.mem_map.mp member
  refine List.mem_map_of_mem ?_
  rw [toList_qualifyNames]
  exact Chars.mem_words_replaceWords (fun _ _ => mem_words_meaning) isRun

theorem mem_words_of_qualifyNames {s word : String}
    (member : word ∈ Text.words ((ofTree tree).qualifyNames s)) :
    word ∈ Text.words s ∨
      ∃ id, namesType tree id = true ∧ word ∈ Text.words (tree.qualifiedName id) := by
  obtain ⟨run, isRun, rfl⟩ := List.mem_map.mp member
  rw [toList_qualifyNames] at isRun
  rcases Chars.mem_words_of_replaceWords isRun with before | ⟨name, text, known, written⟩
  · exact .inl (List.mem_map_of_mem before)
  · obtain ⟨full, longer, rfl⟩ := Option.map_eq_some_iff.mp known
    obtain ⟨-, id, names, rfl, -, -⟩ := exists_of_longerName? longer
    exact .inr ⟨id, names, List.mem_map_of_mem written⟩

end TypeRegistries

namespace Spelling

open Text

/-! ## Restored lists -/

theorem length_le_of_mem_templateArgs {arg args : String} (member : arg ∈ templateArgs args) :
    arg.length ≤ args.length := by
  obtain ⟨inner, isInner, rfl⟩ := List.mem_map.mp member
  rw [String.length_ofList, ← String.length_toList]
  exact Chars.length_le_of_mem_templateArgs isInner

theorem length_lt_of_splitTemplate {s base args rest : String}
    (split : splitTemplate s = some (base, args, rest)) : args.length < s.length := by
  have sizes := congrArg String.length (Text.splitTemplate_eq_some_iff.mp split).1
  simp only [String.length_append] at sizes
  have opening : "<".length = 1 := rfl
  omega

theorem isNested_of_isBracketedList {args : String} (bracketed : IsBracketedList args) :
    Chars.IsNested args.toList := by
  refine .of_templateArgs fun arg member => ?_
  have argument := bracketed.arguments (String.ofList arg) (List.mem_map_of_mem member)
  rw [IsArgument, String.toList_ofList] at argument
  exact argument.isEnclosed.toIsNested

theorem isArgument_restoreArg {depth : Nat}
    (lists : ∀ {written canonical : String}, IsBracketedList written → IsBracketedList canonical →
      Chars.IsNested (restoreArgsTo depth written canonical).toList)
    {own? : Option String} {core : String}
    (written : ∀ own ∈ own?, IsArgument own ∧ IsBracketed own) (argument : IsArgument core)
    (bracketed : IsBracketed core) : IsArgument (restoreArg depth own? core) := by
  cases own? with
  | none => exact argument
  | some own =>
      obtain ⟨ownArgument, ownBracketed⟩ := written own rfl
      rw [restoreArg]
      split_ifs
      · exact argument
      · exact ownArgument
      · cases splitOwn : splitTemplate own with
        | none => exact argument
        | some ownParts =>
            cases splitCore : splitTemplate core with
            | none => exact argument
            | some coreParts =>
                obtain ⟨ownBase, ownArgs, ownRest⟩ := ownParts
                obtain ⟨base, coreArgs, rest⟩ := coreParts
                have ownList := ownBracketed.isBracketedList splitOwn
                have coreList := bracketed.isBracketedList splitCore
                rw [(Text.splitTemplate_eq_some_iff.mp splitCore).1] at argument
                simp only [IsArgument, String.toList_append] at argument ⊢
                have exchanged := Chars.IsArgument.exchange (by simpa using argument)
                  (isNested_of_isBracketedList coreList) (lists ownList coreList)
                simpa using exchanged

theorem isArgument_mapIdx_restoreArg {depth : Nat}
    (lists : ∀ {written canonical : String}, IsBracketedList written → IsBracketedList canonical →
      Chars.IsNested (restoreArgsTo depth written canonical).toList)
    {written canonical : String} (own : IsBracketedList written) (core : IsBracketedList canonical) :
    ∀ arg ∈ (templateArgs canonical).mapIdx fun index =>
      restoreArg depth (templateArgs written)[index]?, IsArgument arg := by
  intro arg member
  obtain ⟨index, inside, rfl⟩ := List.mem_mapIdx.mp member
  have found := List.getElem_mem inside
  refine isArgument_restoreArg lists (fun other isOther => ?_) (core.arguments _ found)
    (core.inner _ found)
  have present := List.mem_of_getElem? (Option.mem_def.mp isOther)
  exact ⟨own.arguments other present, own.inner other present⟩

/-- A restored list is one whose arguments can be read back. -/
theorem isNested_restoreArgsTo (depth : Nat) : ∀ {written canonical : String},
    IsBracketedList written → IsBracketedList canonical →
      Chars.IsNested (restoreArgsTo depth written canonical).toList := by
  induction depth with
  | zero => exact fun _ core => isNested_of_isBracketedList core
  | succ depth ih =>
      intro written canonical own core
      rw [restoreArgsTo_succ]
      exact isNested_joinArgs (isArgument_mapIdx_restoreArg ih own core)

theorem templateArgs_restoreArgsTo (depth : Nat) {written canonical : String}
    (own : IsBracketedList written) (core : IsBracketedList canonical) :
    templateArgs (restoreArgsTo (depth + 1) written canonical) =
      (templateArgs canonical).mapIdx fun index =>
        restoreArg depth (templateArgs written)[index]? := by
  rw [restoreArgsTo_succ]
  exact templateArgs_joinArgs
    (isArgument_mapIdx_restoreArg (isNested_restoreArgsTo depth) own core)

theorem argumentIn?_restoreArgsTo {written canonical : String} (own : IsBracketedList written)
    (core : IsBracketedList canonical) {index : Nat} {ownArg coreArg : String}
    (isOwn : (templateArgs written)[index]? = some ownArg)
    (isCore : (templateArgs canonical)[index]? = some coreArg) (depth : Nat)
    (path : List (Nat × Nat)) :
    argumentIn? index path (restoreArgsTo (depth + 1) written canonical) =
      argumentAt? path (restoreArg depth (some ownArg) coreArg) := by
  rw [argumentIn?, templateArgs_restoreArgsTo depth own core, List.getElem?_mapIdx, isCore, isOwn]
  rfl

section

variable {own core ownBase ownArgs ownRest base coreArgs rest : String}
  (differ : own ≠ core) (ownSplit : splitTemplate own = some (ownBase, ownArgs, ownRest))
  (coreSplit : splitTemplate core = some (base, coreArgs, rest))

include differ ownSplit coreSplit

theorem restoreArg_of_lists (depth : Nat) : restoreArg depth (some own) core =
    base ++ "<" ++ restoreArgsTo depth ownArgs coreArgs ++ ">" ++ rest := by
  have shown : ¬ isPrimitive core = true := fun builtin => by
    rw [splitTemplate_of_isPrimitive builtin] at coreSplit
    cases coreSplit
  rw [restoreArg, if_neg differ, if_neg shown, ownSplit, coreSplit]

/-- Where both arguments have lists, the first one is restored and what stands behind it stays. -/
theorem splitTemplate_restoreArg (ownBracketed : IsBracketed own) (bracketed : IsBracketed core)
    (depth : Nat) : splitTemplate (restoreArg depth (some own) core) =
      some (base, restoreArgsTo depth ownArgs coreArgs, rest) := by
  obtain ⟨-, plain, -⟩ := Text.splitTemplate_eq_some_iff.mp coreSplit
  have nested := isNested_restoreArgsTo depth (ownBracketed.isBracketedList ownSplit)
    (bracketed.isBracketedList coreSplit)
  rw [restoreArg_of_lists differ ownSplit coreSplit]
  exact splitTemplate_append plain nested.angles rest

end

/-- A way that goes through the first list of each argument. -/
def IsFirstWay (path : List (Nat × Nat)) : Prop :=
  ∀ step ∈ path, step.1 = 0

instance (path : List (Nat × Nat)) : Decidable (IsFirstWay path) :=
  inferInstanceAs (Decidable (∀ step ∈ path, step.1 = 0))

theorem isFirstWay_cons {number index : Nat} {path : List (Nat × Nat)} :
    IsFirstWay ((number, index) :: path) ↔ number = 0 ∧ IsFirstWay path :=
  List.forall_mem_cons

/-- What restoring leaves at a place: the written argument, if the way to it goes through first
lists and it stands for a builtin type, and the canonical one if not. -/
theorem argumentAt?_restoreArg {own core : String} (differ : own ≠ core)
    (plain : splitTemplate own = none) (path : List (Nat × Nat)) :
    ∀ {depth : Nat} {written canonical : String}, IsBracketed written → IsBracketed canonical →
      canonical.length ≤ depth → argumentAt? path written = some own →
      argumentAt? path canonical = some core →
      argumentAt? path (restoreArg depth (some written) canonical) =
        some (if IsFirstWay path ∧ isPrimitive core = true then own else core) := by
  induction path with
  | nil =>
      intro depth written canonical _ _ _ isOwn isCore
      cases isOwn
      cases isCore
      have first : IsFirstWay [] := nofun
      rw [argumentAt?, restoreArg, if_neg differ, plain]
      simp only [first, true_and]
  | cons step path ih =>
      intro depth written canonical ownBracketed coreBracketed fits isOwn isCore
      obtain ⟨number, index⟩ := step
      have apart : written ≠ canonical := by
        rintro rfl
        exact differ (Option.some_inj.mp (isOwn.symm.trans isCore))
      obtain ⟨ownText, isOwnList, atOwn⟩ := Option.bind_eq_some_iff.mp isOwn
      obtain ⟨coreText, isCoreList, atCore⟩ := Option.bind_eq_some_iff.mp isCore
      obtain ⟨ownBase, ownArgs, ownRest, ownSplit⟩ := exists_of_listAt? isOwnList
      obtain ⟨base, coreArgs, rest, coreSplit⟩ := exists_of_listAt? isCoreList
      have split := splitTemplate_restoreArg apart ownSplit coreSplit ownBracketed coreBracketed depth
      rw [argumentAt?_cons]
      cases number with
      | zero =>
          have shorter := length_lt_of_splitTemplate coreSplit
          obtain ⟨depth, rfl⟩ : ∃ level, depth = level + 1 :=
            Nat.exists_eq_add_one_of_ne_zero (by omega)
          rw [listAt?_zero ownSplit, Option.some_inj] at isOwnList
          rw [listAt?_zero coreSplit, Option.some_inj] at isCoreList
          rw [← isOwnList] at atOwn
          rw [← isCoreList] at atCore
          have ownList := ownBracketed.isBracketedList ownSplit
          have coreList := coreBracketed.isBracketedList coreSplit
          obtain ⟨ownArg, isOwnArg, insideOwn⟩ := Option.bind_eq_some_iff.mp atOwn
          obtain ⟨coreArg, isCoreArg, insideCore⟩ := Option.bind_eq_some_iff.mp atCore
          have ownMember := List.mem_of_getElem? isOwnArg
          have coreMember := List.mem_of_getElem? isCoreArg
          have within := length_le_of_mem_templateArgs coreMember
          rw [listAt?_zero split, Option.bind_some,
            argumentIn?_restoreArgsTo ownList coreList isOwnArg isCoreArg,
            ih (ownList.inner ownArg ownMember) (coreList.inner coreArg coreMember) (by omega)
              insideOwn insideCore]
          simp only [isFirstWay_cons, true_and]
      | succ number =>
          rw [listAt?_succ coreSplit] at isCoreList
          rw [listAt?_succ split, isCoreList, Option.bind_some]
          refine atCore.trans (congrArg some (if_neg ?_).symm)
          exact fun first => Nat.succ_ne_zero number (isFirstWay_cons.mp first.1).1

theorem argumentIn?_restoreArgs {own core written canonical : String} (differ : own ≠ core)
    (plain : splitTemplate own = none) (ownList : IsBracketedList written)
    (coreList : IsBracketedList canonical) {index : Nat} {path : List (Nat × Nat)}
    (isOwn : argumentIn? index path written = some own)
    (isCore : argumentIn? index path canonical = some core) :
    argumentIn? index path (restoreArgs written canonical) =
      some (if IsFirstWay path ∧ isPrimitive core = true then own else core) := by
  obtain ⟨ownArg, isOwnArg, insideOwn⟩ := Option.bind_eq_some_iff.mp isOwn
  obtain ⟨coreArg, isCoreArg, insideCore⟩ := Option.bind_eq_some_iff.mp isCore
  have ownMember := List.mem_of_getElem? isOwnArg
  have coreMember := List.mem_of_getElem? isCoreArg
  rw [restoreArgs, argumentIn?_restoreArgsTo ownList coreList isOwnArg isCoreArg]
  exact argumentAt?_restoreArg differ plain path (ownList.inner ownArg ownMember)
    (coreList.inner coreArg coreMember) (length_le_of_mem_templateArgs coreMember) insideOwn
    insideCore

/-! ## What stands in front -/

theorem not_mem_of_mem_splitScope {s component : String} (plain : '<' ∉ s.toList)
    (member : component ∈ splitScope s) : '<' ∉ component.toList := by
  obtain ⟨piece, isPiece, rfl⟩ := List.mem_map.mp member
  obtain ⟨untrimmed, isUntrimmed, rfl⟩ := List.mem_map.mp isPiece
  have inside := Chars.isInfix_intercalate [':', ':'] isUntrimmed
  rw [Chars.intercalate_scopePieces] at inside
  rw [String.toList_ofList, Chars.mem_trim (by decide)]
  exact fun angle => plain (inside.subset angle)

theorem not_mem_joinScope_append {components : List String}
    (plain : ∀ component ∈ components, '<' ∉ component.toList) :
    '<' ∉ (joinScope components ++ "::").toList := by
  have colons : '<' ∉ "::".toList := by decide
  rw [String.toList_append, List.mem_append, toList_joinScope]
  refine not_or.mpr ⟨fun angle => ?_, colons⟩
  rcases Chars.mem_intercalate angle with colon | ⟨piece, isPiece, inside⟩
  · exact colons colon
  · obtain ⟨component, member, rfl⟩ := List.mem_map.mp isPiece
    exact plain component member inside

/-- Scopes without lists are put in front of a spelling, or nothing is. -/
theorem exists_prefixScope_eq (spelling : String) {qualified : String}
    (plain : '<' ∉ qualified.toList) :
    ∃ front, '<' ∉ front.toList ∧ prefixScope spelling qualified = front ++ spelling := by
  have alone : ∃ front : String, '<' ∉ front.toList ∧ spelling = front ++ spelling :=
    ⟨"", by simp, String.empty_append.symm⟩
  rw [prefixScope]
  cases splitScope spelling with
  | nil => exact alone
  | cons written others =>
      dsimp only
      cases outer : ((splitScope qualified).reverse.dropWhile
          (· != stripTemplateArgs written)).drop 1 with
      | nil => exact alone
      | cons scope scopes =>
          refine ⟨joinScope (scope :: scopes).reverse ++ "::", ?_, rfl⟩
          refine not_mem_joinScope_append fun component member => ?_
          have kept := List.mem_of_mem_drop (outer ▸ List.mem_reverse.mp member)
          have whole := (List.dropWhile_suffix _).subset kept
          exact not_mem_of_mem_splitScope plain (List.mem_reverse.mp whole)

theorem exists_withConst_eq (isConst : Bool) (spelling : String) :
    ∃ front, '<' ∉ front.toList ∧ withConst isConst spelling = front ++ spelling := by
  rw [withConst]
  split
  · exact ⟨"const ", by decide, rfl⟩
  · exact ⟨"", by simp, String.empty_append.symm⟩

end Spelling

end Bindery
