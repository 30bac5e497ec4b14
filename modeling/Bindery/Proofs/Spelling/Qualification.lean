import Bindery.Proofs.Spelling.Names
import Bindery.Proofs.Text.Brackets
import Bindery.Tree.Build

/-!
# Names under their scopes

A class that is written by the last components of its qualified name is spelled by the whole of it.
The scopes are found by the rightmost component that equals the first written one, the arguments may
be taken from the canonical form, and registered names are written out last; each of the three
passes can spoil the name.
-/

set_option autoImplicit false

namespace Bindery

namespace Spelling

/-! ## Scopes in front -/

theorem joinScope_append {scopes others : List String} (first : String) :
    Text.joinScope (scopes ++ first :: others) =
      match scopes with
      | [] => Text.joinScope (first :: others)
      | _ => Text.joinScope scopes ++ "::" ++ Text.joinScope (first :: others) := by
  cases scopes with
  | nil => rfl
  | cons scope scopes =>
      exact String.intercalate_append_of_ne_nil (List.cons_ne_nil _ _) (List.cons_ne_nil _ _)

theorem toList_joinScope_cons_cons (first second : String) (others : List String) :
    (Text.joinScope (first :: second :: others)).toList =
      first.toList ++ ':' :: ':' :: (Text.joinScope (second :: others)).toList := by
  simp [Text.joinScope, String.intercalate_cons_cons]

/-- From behind, the last of the components that equal `first` is met first. -/
theorem dropWhile_reverse_path {first : String} {later : List String} (last : first ∉ later)
    (scopes : List String) :
    (scopes ++ first :: later).reverse.dropWhile (· != first) = first :: scopes.reverse := by
  have skipped : later.reverse.dropWhile (· != first) = [] := by
    refine List.dropWhile_eq_nil_iff.mpr fun other member => ?_
    refine bne_iff_ne.mpr ?_
    rintro rfl
    exact last (List.mem_reverse.mp member)
  rw [List.reverse_append, List.reverse_cons, List.append_assoc, List.dropWhile_append, skipped]
  simp

/-- The scopes before the last component that is the first written one are put in front. -/
theorem prefixScope_eq (inner : List String) {scopes later : List String} {first : String}
    {args : Option (List String)}
    (components : ∀ component ∈ scopes ++ first :: later, Text.IsComponent component)
    (arguments : ∀ list ∈ args, ∀ arg ∈ list, Text.IsArgument arg) (last : first ∉ later) :
    prefixScope (Text.joinScope (first :: inner) ++ Text.argumentList args)
        (Text.joinScope (scopes ++ first :: later)) =
      Text.joinScope (scopes ++ first :: inner) ++ Text.argumentList args := by
  have component := components first (by simp)
  obtain ⟨written, pieces, split, bare⟩ : ∃ written pieces,
      Text.splitScope (Text.joinScope (first :: inner) ++ Text.argumentList args) =
        written :: pieces ∧ Text.stripTemplateArgs written = first :=
    Text.exists_splitScope_eq component arguments
  have whole : Text.splitScope (Text.joinScope (scopes ++ first :: later)) =
      scopes ++ first :: later :=
    Text.splitScope_joinScope (by simp) fun part member => (components part member).isNamePart
  rw [prefixScope, split]
  simp only [bare, whole, dropWhile_reverse_path last, List.drop_succ_cons, List.drop_zero]
  rw [joinScope_append]
  cases scopes with
  | nil => rfl
  | cons scope scopes =>
      cases reversed : (scope :: scopes).reverse with
      | nil => simp at reversed
      | cons outermost others =>
          simp only [← reversed, List.reverse_reverse, String.append_assoc]

/-! ## Arguments of the canonical form -/

/-- The canonical form has arguments with more scopes than the written ones, and they show no
internals of a library. -/
def AddsScopes (args canonical : String) : Prop :=
  ∃ base core rest, Text.splitTemplate canonical = some (base, core, rest) ∧
    Chars.scopeCount args.toList < Chars.scopeCount core.toList ∧
    internals.any (Text.containsText · core) = false

theorem scopeCount_template (base args rest : String) :
    Chars.scopeCount (base ++ "<" ++ args ++ ">" ++ rest).toList =
      Chars.scopeCount base.toList + Chars.scopeCount args.toList
        + Chars.scopeCount rest.toList := by
  have parts : (base ++ "<" ++ args ++ ">" ++ rest).toList =
      base.toList ++ '<' :: (args.toList ++ '>' :: rest.toList) := by
    simp
  rw [parts, Chars.scopeCount_template]

theorem scopeCount_joinArgs (args : List String) :
    Chars.scopeCount (Text.joinArgs args).toList =
      Chars.totalScopes (args.map String.toList) := by
  rw [Text.toList_joinArgs, Chars.scopeCount_intercalate (by decide) (by decide)]

theorem totalScopes_templateArgs (args : String) :
    Chars.totalScopes ((Text.templateArgs args).map String.toList) =
      Chars.scopeCount args.toList := by
  rw [Text.templateArgs, List.map_map, ← Chars.totalScopes_templateArgs]
  simp [Function.comp_def]

theorem totalScopes_le_mapIdx (args : List String) :
    ∀ {change : Nat → String → String},
      (∀ index arg, Chars.scopeCount arg.toList ≤ Chars.scopeCount (change index arg).toList) →
        Chars.totalScopes (args.map String.toList) ≤
          Chars.totalScopes ((args.mapIdx change).map String.toList) := by
  induction args with
  | nil => exact fun _ => Nat.le_refl _
  | cons arg args ih =>
      intro change grows
      have later := ih fun index => grows (index + 1)
      rw [List.mapIdx_cons, List.map_cons, List.map_cons, Chars.totalScopes, Chars.totalScopes]
      exact Nat.add_le_add (grows 0 arg) later

/-- Restoring written names loses none of the scopes of the canonical form: only builtin types give
way to them. -/
theorem scopeCount_le_restoreArgsTo (depth : Nat) :
    ∀ written canonical : String, Chars.scopeCount canonical.toList ≤
      Chars.scopeCount (restoreArgsTo depth written canonical).toList := by
  induction depth with
  | zero => exact fun _ _ => Nat.le_refl _
  | succ depth ih =>
      intro written canonical
      rw [restoreArgsTo, scopeCount_joinArgs, ← totalScopes_templateArgs]
      refine totalScopes_le_mapIdx _ fun index core => ?_
      split
      case h_1 => exact Nat.le_refl _
      case h_2 own _ =>
        split
        case isTrue => exact Nat.le_refl _
        case isFalse =>
          split
          case isTrue builtin =>
            rw [Text.scopeCount_eq_zero_of_isPrimitive builtin]
            exact Nat.zero_le _
          case isFalse =>
            split
            case h_1 _ _ _ ownArgs _ base coreArgs rest _ split =>
              have inner := ih ownArgs coreArgs
              rw [(Text.splitTemplate_eq_some_iff.mp split).1, scopeCount_template, scopeCount_template]
              omega
            case h_2 => exact Nat.le_refl _

theorem append_argumentList_some (name : String) (list : List String) :
    name ++ Text.argumentList (some list) = name ++ "<" ++ Text.joinArgs list ++ ">" ++ "" := by
  simp only [Text.argumentList, String.append_assoc, String.append_empty]

theorem splitTemplate_append_argumentList {name : String} (plain : '<' ∉ name.toList)
    {args : Option (List String)} (arguments : ∀ list ∈ args, ∀ arg ∈ list, Text.IsArgument arg) :
    Text.splitTemplate (name ++ Text.argumentList args) =
      args.map fun list => (name, Text.joinArgs list, "") := by
  cases args with
  | none =>
      have nothing : name.toList.dropWhile (· != '<') = [] := by
        refine List.dropWhile_eq_nil_iff.mpr fun c member => ?_
        exact Chars.ne_of_plain plain c member
      rw [Text.argumentList, String.append_empty, Text.splitTemplate, Chars.splitTemplate, nothing]
      rfl
  | some list =>
      rw [append_argumentList_some, Text.splitTemplate_joinArgs plain (arguments list rfl) ""]
      rfl

section

variable {spelling canonical base args rest : String}
  (split : Text.splitTemplate spelling = some (base, args, rest))

include split

theorem withCanonicalArgs_of_not_adds (keeps : ¬ AddsScopes args canonical) :
    withCanonicalArgs spelling canonical = spelling := by
  rw [withCanonicalArgs, split]
  cases coreSplit : Text.splitTemplate canonical with
  | none => rfl
  | some parts =>
      obtain ⟨coreBase, core, coreRest⟩ := parts
      refine if_neg fun takes => keeps ?_
      simp only [Bool.and_eq_true, decide_eq_true_eq, Bool.not_eq_true'] at takes
      exact ⟨coreBase, core, coreRest, coreSplit, takes⟩

theorem withCanonicalArgs_of_adds (adds : AddsScopes args canonical)
    {coreBase core coreRest : String}
    (coreSplit : Text.splitTemplate canonical = some (coreBase, core, coreRest)) :
    withCanonicalArgs spelling canonical =
      base ++ "<" ++ restoreArgs args core ++ ">" ++ rest := by
  obtain ⟨_, _, _, found, more, shown⟩ := adds
  cases found.symm.trans coreSplit
  have takes : (decide (Chars.scopeCount args.toList < Chars.scopeCount core.toList) &&
      !internals.any (Text.containsText · core)) = true := by
    simp [more, shown]
  rw [withCanonicalArgs, split, coreSplit]
  exact if_pos takes

end

section

variable {name : String} {args : Option (List String)} {canonical : String}

theorem withCanonicalArgs_eq_self (plain : '<' ∉ name.toList)
    (arguments : ∀ list ∈ args, ∀ arg ∈ list, Text.IsArgument arg)
    (keeps : ∀ list ∈ args, ¬ AddsScopes (Text.joinArgs list) canonical) :
    withCanonicalArgs (name ++ Text.argumentList args) canonical =
      name ++ Text.argumentList args := by
  have split := splitTemplate_append_argumentList plain arguments
  cases args with
  | none =>
      rw [withCanonicalArgs, split]
      rfl
  | some list => exact withCanonicalArgs_of_not_adds split (keeps list rfl)

/-- Taking over the arguments of the canonical form shows in the number of scopes. -/
theorem scopeCount_lt_withCanonicalArgs (plain : '<' ∉ name.toList)
    (arguments : ∀ list ∈ args, ∀ arg ∈ list, Text.IsArgument arg)
    (adds : ∃ list ∈ args, AddsScopes (Text.joinArgs list) canonical) :
    Chars.scopeCount (name ++ Text.argumentList args).toList <
      Chars.scopeCount (withCanonicalArgs (name ++ Text.argumentList args) canonical).toList := by
  obtain ⟨list, rfl, base, core, rest, coreSplit, more, shown⟩ := adds
  have split := splitTemplate_append_argumentList plain arguments
  have takes : AddsScopes (Text.joinArgs list) canonical :=
    ⟨base, core, rest, coreSplit, more, shown⟩
  have kept := scopeCount_le_restoreArgsTo (core.length + 1) (Text.joinArgs list) core
  rw [withCanonicalArgs_of_adds split takes coreSplit, append_argumentList_some,
    scopeCount_template, scopeCount_template, restoreArgs]
  omega

end

theorem scopeCount_joinScope {components : List String}
    (plain : ∀ component ∈ components, Text.IsComponent component) :
    Chars.scopeCount (Text.joinScope components).toList = components.length - 1 := by
  induction components with
  | nil => rfl
  | cons first others ih =>
      have own := Chars.scopeCount_append_left (plain first List.mem_cons_self).colons
      cases others with
      | nil =>
          have alone := own []
          rw [List.append_nil] at alone
          simpa [Text.joinScope, Chars.scopeCount] using alone
      | cons second others =>
          have behind := ih fun component member => plain component (List.mem_cons_of_mem _ member)
          rw [toList_joinScope_cons_cons, own, Chars.scopeCount, behind]
          simp

theorem not_mem_joinScope {components : List String}
    (plain : ∀ component ∈ components, Text.IsComponent component) :
    '<' ∉ (Text.joinScope components).toList := by
  induction components with
  | nil => simp [Text.joinScope]
  | cons first others ih =>
      have own := Chars.IsComponent.plain (plain first List.mem_cons_self)
      cases others with
      | nil => simpa [Text.joinScope] using own
      | cons second others =>
          have behind := ih fun component member => plain component (List.mem_cons_of_mem _ member)
          simp [toList_joinScope_cons_cons, own, behind]

end Spelling

namespace Speller

/-! ## Written names -/

/-- A class under a path of scopes, and a type that names it by the last components of the path.
`outer` are the scopes that are left out, `first` and `inner` the components that are written. -/
structure WritesPath (tree : DeclTree) (type : TypeId) (outer : List String) (first : String)
    (inner : List String) (args : Option (List String)) : Prop where
  byName : (tree.type type).kind.isByName = true
  bare : (tree.type type).isConst = false
  behind : ∃ id, tree.typeDeclaration type = some id ∧ (tree.decl id).kind.isRecord = true ∧
    tree.scopeComponents id ++ [(tree.decl id).spelling] = outer ++ first :: inner
  components : ∀ component ∈ outer ++ first :: inner, Text.IsComponent component
  arguments : ∀ list ∈ args, ∀ arg ∈ list, Text.IsArgument arg
  spelling : (tree.type type).spelling =
    Text.joinScope (first :: inner) ++ Text.argumentList args

/-- Names that need no scope in front: none of them is registered under a longer one. -/
def NeedsNoScope (tree : DeclTree) (spelling : String) : Prop :=
  ∀ name ∈ Text.freeNames spelling, (TypeRegistries.ofTree tree).longerName? name = none

variable {tree : DeclTree} {type : TypeId} {outer inner : List String} {first : String}
  {args : Option (List String)}

theorem spell_of_isRecord {id : DeclId} (byName : (tree.type type).kind.isByName = true)
    (behind : tree.typeDeclaration type = some id) (isRecord : (tree.decl id).kind.isRecord = true) :
    (ofTree tree).spell type =
      Spelling.withConst (tree.type type).isConst ((ofTree tree).spellRecord type id) := by
  have whole : (ofTree tree).spellNamed type = (ofTree tree).spellRecord type id := by
    rw [spellNamed]
    simp only [ofTree, behind]
    cases kind : (tree.decl id).kind <;> first
      | exact absurd (isRecord.symm.trans (congrArg DeclKind.isRecord kind)) (by decide)
      | rfl
  have spelled := spellTo_of_isByName (ofTree tree) tree.types.size byName
  rw [whole] at spelled
  exact spelled

theorem WritesPath.spell_eq (writes : WritesPath tree type outer first inner args)
    {scopes later : List String} (cut : outer ++ first :: inner = scopes ++ first :: later)
    (last : first ∉ later) :
    (ofTree tree).spell type = (TypeRegistries.ofTree tree).qualifyNames
      (Spelling.withCanonicalArgs
        (Text.joinScope (scopes ++ first :: inner) ++ Text.argumentList args)
        (tree.type (tree.canonical type)).spelling) := by
  obtain ⟨id, behind, isRecord, path⟩ := writes.behind
  have named : (tree.decl id).spelling ≠ "" := by
    intro empty
    have component := writes.components (tree.decl id).spelling (path ▸ by simp)
    exact component.nonempty (by rw [empty]; rfl)
  have qualified : tree.qualifiedName id = Text.joinScope (scopes ++ first :: later) := by
    rw [← cut, ← path, DeclTree.qualifiedName]
    simp [named, Text.joinScope]
  have components : ∀ component ∈ scopes ++ first :: later, Text.IsComponent component := by
    intro component member
    exact writes.components component (cut ▸ member)
  have prefixed := Spelling.prefixScope_eq inner components writes.arguments last
  rw [spell_of_isRecord writes.byName behind isRecord, writes.bare, Spelling.withConst]
  simp only [Bool.false_and, Bool.false_eq_true, if_false, spellRecord, ofTree, writes.spelling,
    qualified, prefixed]

theorem needsNoScope_append_argumentList (name : String) :
    NeedsNoScope tree (name ++ Text.argumentList args) ↔
      NeedsNoScope tree name ∧ ∀ list ∈ args, ∀ arg ∈ list, NeedsNoScope tree arg := by
  cases args with
  | none => simp [Text.argumentList, NeedsNoScope]
  | some list =>
      have nothing : Text.freeNames "" = [] := by
        simp [Text.freeNames, Chars.freeNames_eq, Chars.freeNamesFrom]
      simp only [NeedsNoScope, Spelling.append_argumentList_some, Text.freeNames_brackets,
        Text.freeNames_joinArgs, nothing, List.append_nil, List.mem_append, List.mem_flatMap]
      simp only [or_imp, forall_and, Option.mem_def, Option.some.injEq, forall_eq']
      refine and_congr_right fun _ => ⟨?_, ?_⟩
      · intro all arg member name inside
        exact all name ⟨arg, member, inside⟩
      · intro all name found
        obtain ⟨arg, member, inside⟩ := found
        exact all arg member name inside

theorem scopeCount_append_argumentList {components : List String}
    (plain : ∀ component ∈ components, Text.IsComponent component)
    (args : Option (List String)) :
    Chars.scopeCount (Text.joinScope components ++ Text.argumentList args).toList =
      components.length - 1 + Chars.scopeCount (Text.argumentList args).toList := by
  rw [← Spelling.scopeCount_joinScope plain]
  cases args with
  | none => simp [Text.argumentList, Chars.scopeCount]
  | some list =>
      have opening : Chars.scopeCount ("<" ++ Text.joinArgs list ++ ">").toList =
          Chars.scopeCount (Text.joinArgs list ++ ">").toList := by
        simp [Chars.scopeCount_cons]
      rw [Text.argumentList, opening]
      simp [Chars.scopeCount_append_cons]

theorem scopeCount_le_qualifyNames (tree : DeclTree) (spelling : String) :
    Chars.scopeCount spelling.toList ≤
      Chars.scopeCount ((TypeRegistries.ofTree tree).qualifyNames spelling).toList := by
  rw [TypeRegistries.toList_qualifyNames]
  exact (Chars.scopeCount_replaceWords _ [] spelling.toList).1

/-- A path is cut before its last component of a given name. -/
theorem exists_last_cut (outer : List String) (first : String) (inner : List String) :
    ∃ scopes later, outer ++ first :: inner = scopes ++ first :: later ∧ first ∉ later ∧
      (first ∉ inner → scopes = outer) ∧ (first ∈ inner → outer.length < scopes.length) := by
  by_cases again : first ∈ inner
  · obtain ⟨behind, before, reversed, last⟩ :=
      List.eq_append_cons_of_mem (List.mem_reverse.mpr again)
    have inside : inner = before.reverse ++ first :: behind.reverse := by
      have parts := congrArg List.reverse reversed
      simpa using parts
    refine ⟨outer ++ first :: before.reverse, behind.reverse, by simp [inside], ?_, ?_, ?_⟩
    · simpa using last
    · exact fun absent => absurd again absent
    · intro _
      simp
  · exact ⟨outer, inner, rfl, again, fun _ => rfl, fun present => absurd present again⟩

/-- A name with fully qualified arguments comes out under its whole path exactly if its first
written component does not come again, no name at the front of the path is registered, and the
canonical form adds no scopes to the arguments. -/
theorem path_is_spelled_iff (writes : WritesPath tree type outer first inner args)
    (qualified : ∀ list ∈ args, ∀ arg ∈ list, NeedsNoScope tree arg) :
    (ofTree tree).spell type =
        Text.joinScope (outer ++ first :: inner) ++ Text.argumentList args ↔
      first ∉ inner ∧ NeedsNoScope tree (Text.joinScope (outer ++ first :: inner)) ∧
        ∀ list ∈ args, ¬ Spelling.AddsScopes (Text.joinArgs list)
          (tree.type (tree.canonical type)).spelling := by
  obtain ⟨scopes, later, cut, last, sameScopes, moreScopes⟩ := exists_last_cut outer first inner
  have components : ∀ component ∈ scopes ++ first :: inner, Text.IsComponent component := by
    intro component member
    rcases List.mem_append.mp member with scope | written
    · exact writes.components component (cut ▸ List.mem_append_left _ scope)
    · exact writes.components component (List.mem_append_right _ written)
  have plain := Spelling.not_mem_joinScope components
  have spelled := writes.spell_eq cut last
  have found := scopeCount_append_argumentList components args
  have wanted := scopeCount_append_argumentList writes.components args
  have size : outer.length ≤ scopes.length := by
    by_cases again : first ∈ inner
    · exact Nat.le_of_lt (moreScopes again)
    · exact Nat.le_of_eq (congrArg List.length (sameScopes again)).symm
  simp only [List.length_append, List.length_cons] at found wanted
  constructor
  · intro same
    have result := scopeCount_le_qualifyNames tree (Spelling.withCanonicalArgs
      (Text.joinScope (scopes ++ first :: inner) ++ Text.argumentList args)
      (tree.type (tree.canonical type)).spelling)
    rw [← spelled, same] at result
    have keeps : ∀ list ∈ args, ¬ Spelling.AddsScopes (Text.joinArgs list)
        (tree.type (tree.canonical type)).spelling := by
      intro list isList adds
      have more := Spelling.scopeCount_lt_withCanonicalArgs plain writes.arguments
        ⟨list, isList, adds⟩
      omega
    rw [Spelling.withCanonicalArgs_eq_self plain writes.arguments keeps] at result spelled
    have once : first ∉ inner := by
      intro again
      have longer := moreScopes again
      omega
    rw [sameScopes once] at spelled
    have names := (TypeRegistries.qualifyNames_eq_self_iff _).mp (spelled.symm.trans same)
    exact ⟨once, ((needsNoScope_append_argumentList _).mp names).1, keeps⟩
  · rintro ⟨once, names, keeps⟩
    rw [spelled, Spelling.withCanonicalArgs_eq_self plain writes.arguments keeps, sameScopes once]
    exact (TypeRegistries.qualifyNames_eq_self_iff _).mpr
      ((needsNoScope_append_argumentList _).mpr ⟨names, qualified⟩)

/-- An instantiation of a template in an inline namespace, written without its outermost scope. -/
def versionedTree : DeclTree :=
  ((TreeBuilder.start "/src/unit.hpp").performAll
    [.add 0 .namespaceDecl "ns1",
     .add 1 .namespaceDecl "ns2",
     .inlineNamespace 2 "v1",
     .add 3 .classDecl "Arg",
     .classTemplate 3 "Name" ["T"],
     .specialization 5 "ns1::ns2::Arg",
     .recordAs 7 "ns2::Name<ns1::ns2::Arg>"]).tree

theorem versioned_path_is_spelled :
    (ofTree versionedTree).spell 1 =
        Text.joinScope (["ns1"] ++ "ns2" :: ["Name"]) ++
          Text.argumentList (some ["ns1::ns2::Arg"]) ∧
      (ofTree versionedTree).spell 1 = "ns1::ns2::Name<ns1::ns2::Arg>" := by
  have writes : WritesPath versionedTree 1 ["ns1"] "ns2" ["Name"] (some ["ns1::ns2::Arg"]) := by
    refine ⟨?_, ?_, ⟨7, ?_, ?_, ?_⟩, ?_, ?_, ?_⟩ <;> decide +kernel
  have qualified : ∀ list ∈ some ["ns1::ns2::Arg"], ∀ arg ∈ list,
      NeedsNoScope versionedTree arg := by
    unfold NeedsNoScope
    decide +kernel
  have front : NeedsNoScope versionedTree (Text.joinScope (["ns1"] ++ "ns2" :: ["Name"])) := by
    unfold NeedsNoScope
    decide +kernel
  have keeps : ∀ list ∈ some ["ns1::ns2::Arg"], ¬ Spelling.AddsScopes (Text.joinArgs list)
      (versionedTree.type (versionedTree.canonical 1)).spelling := by
    rintro list isList ⟨base, core, rest, split, more, -⟩
    cases isList
    have parts : Text.splitTemplate (versionedTree.type (versionedTree.canonical 1)).spelling =
        some ("ns1::ns2::Name", "ns1::ns2::Arg", "") := by
      decide +kernel
    cases parts.symm.trans split
    exact absurd more (by decide +kernel)
  exact ⟨(path_is_spelled_iff writes qualified).mpr ⟨by decide, front, keeps⟩, by decide +kernel⟩

/-- A class named like its namespace, written by its qualified name. -/
def repeatedTree : DeclTree :=
  ((TreeBuilder.start "/src/unit.hpp").performAll
    [.add 0 .namespaceDecl "Foo",
     .add 1 .classDecl "Foo",
     .recordAs 2 "Foo::Foo"]).tree

theorem repeated_path_is_doubled :
    WritesPath repeatedTree 1 [] "Foo" ["Foo"] none ∧
      (ofTree repeatedTree).spell 1 = "Foo::Foo::Foo" ∧
      (ofTree repeatedTree).spell 1 ≠
        Text.joinScope ([] ++ "Foo" :: ["Foo"]) ++ Text.argumentList none := by
  refine ⟨⟨?_, ?_, ⟨2, ?_, ?_, ?_⟩, ?_, nofun, ?_⟩, ?_, ?_⟩ <;> decide +kernel

end Speller

end Bindery
