import Bindery.Proofs.Spelling.Typename
import Bindery.Proofs.Text.Arguments
import Bindery.Tree.Build

/-!
# Names that are left

The free names of a spelling are told from the type: each branch of the speller hands on the free
names of the text that it starts from, in the form that its pass over them gives.  A registered name
with a longer form that is still among them needs an enclosing scope.
-/

set_option autoImplicit false

namespace Bindery

/-- The qualified names of registered types start with a character of a name. -/
def DeclTree.HasPlainNames (tree : DeclTree) : Prop :=
  ∀ id, TypeRegistries.namesType tree id = true →
    (tree.qualifiedName id).toList.head?.all Chars.isSolid = true

namespace TypeRegistries

/-! ## Passes over names -/

/-- What a free name leaves when registered names are written out. -/
def leavings (registries : TypeRegistries) (name : String) : List String :=
  match registries.longerName? name with
  | some full => Text.freeNames full
  | none => [name]

/-- The free names of a text in which names of templates are written out behind `typename`. -/
def typenameNames (registries : TypeRegistries) (text : String) : List String :=
  (Chars.namesAfter registries.typenameRule [] text.toList).map String.ofList

/-- The free names of a template spelling that is written out down to a depth. -/
def templateNamesTo (registries : TypeRegistries) : Nat → String → List String
  | 0, text => Text.freeNames text
  | depth + 1, text =>
      match Text.splitTemplate text with
      | none => (Text.freeNames text).flatMap registries.leavings
      | some (base, args, rest) =>
          Text.freeNames (registries.qualifyBase base)
            ++ (Text.templateArgs args).flatMap (registries.templateNamesTo depth)
            ++ Text.freeNames rest

def templateNames (registries : TypeRegistries) (text : String) : List String :=
  registries.templateNamesTo (text.length + 1) text

variable {tree : DeclTree}

theorem meaning_nil : (ofTree tree).meaning [] = none := by
  have unnamed : (ofTree tree).longerName? "" = none := longerName?_empty
  rw [meaning]
  exact Option.map_eq_none_iff.mpr unnamed

theorem readsAsName_of_meaning (plain : tree.HasPlainNames) {word text : List Char}
    (nonempty : word ≠ []) (ident : ∀ c ∈ word, Chars.isIdentChar c = true)
    (known : (ofTree tree).meaning word = some text) : Chars.ReadsAsName text := by
  obtain ⟨full, longer, rfl⟩ := Option.map_eq_some_iff.mp known
  obtain ⟨-, id, names, rfl, -, whole⟩ := exists_of_longerName? longer
  refine ⟨(Option.all_eq_true _ _).mp (plain id names), ?_⟩
  obtain ⟨start, c, rfl, own⟩ := Chars.EndsInName.of_forall nonempty ident
  refine ⟨(Text.joinScope (tree.scopeComponents id) ++ "::").toList ++ start, c, ?_, own⟩
  rw [whole]
  simp

theorem freeNames_qualifyNames (plain : tree.HasPlainNames) (text : String) :
    Text.freeNames ((ofTree tree).qualifyNames text) =
      (Text.freeNames text).flatMap (ofTree tree).leavings := by
  have naming : (Chars.wordRule (ofTree tree).meaning).IsNaming :=
    Chars.wordRule_isNaming fun nonempty ident known =>
      readsAsName_of_meaning plain nonempty ident known
  have names := naming.freeNames_rewriteRuns text.toList
  rw [Chars.rewriteRuns_wordRule, ← toList_qualifyNames, Chars.namesAfter_wordRule,
    ← Chars.freeNames_eq] at names
  rw [Text.freeNames, names, Text.freeNames, List.map_flatMap, List.flatMap_map]
  refine List.flatMap_congr fun word _ => ?_
  rw [Chars.namesOf, leavings, meaning]
  cases (ofTree tree).longerName? (String.ofList word) <;> rfl

theorem typenameRule_isNaming (plain : tree.HasPlainNames) :
    (ofTree tree).typenameRule.IsNaming := by
  constructor
  · intro front run behind text written
    rw [typenameRule, Option.ite_none_right_eq_some] at written
    refine Chars.endsInScope_eq_false_of_lastWord fun empty => ?_
    exact absurd (empty.symm.trans written.1.1) (by decide)
  · intro front run behind text ident nonempty written
    rw [typenameRule, Option.ite_none_right_eq_some] at written
    exact readsAsName_of_meaning plain nonempty ident written.2

theorem freeNames_qualifyTypenames (plain : tree.HasPlainNames) (text : String) :
    Text.freeNames ((ofTree tree).qualifyTypenames text) = (ofTree tree).typenameNames text := by
  rw [Text.freeNames, toList_qualifyTypenames meaning_nil,
    (typenameRule_isNaming plain).freeNames_rewriteRuns, typenameNames]

theorem freeNames_qualifyTemplateTo (plain : tree.HasPlainNames) (depth : Nat) :
    ∀ text, Text.freeNames ((ofTree tree).qualifyTemplateTo depth text) =
      (ofTree tree).templateNamesTo depth text := by
  induction depth with
  | zero => exact fun _ => rfl
  | succ depth ih =>
      intro text
      rw [qualifyTemplateTo, templateNamesTo]
      cases Text.splitTemplate text with
      | none => exact freeNames_qualifyNames plain text
      | some parts =>
          obtain ⟨base, args, rest⟩ := parts
          simp only
          rw [Text.freeNames_brackets, Text.freeNames_joinArgs, List.flatMap_map]
          simp only [ih]

end TypeRegistries

namespace Speller

/-! ## Names of types -/

/-- The text in which a type of a class template is written before names behind `typename` are
written out. -/
def templateText (speller : Speller) (spelling : String) (id : DeclId) : String :=
  if Text.containsText "::" spelling then
    spelling
  else
    match Text.splitTemplate spelling with
    | some (_, args, rest) => speller.tree.qualifiedName id ++ "<" ++ args ++ ">" ++ rest
    | none => speller.tree.qualifiedName id

def templateNames (speller : Speller) (spelling : String) (id : DeclId) : List String :=
  speller.registries.typenameNames (speller.templateText spelling id)

def typedefNames (speller : Speller) (spelling : String) (id : DeclId) : List String :=
  if speller.tree.inClassTemplate id then
    Text.freeNames (speller.memberTypedef id)
  else if (Text.splitTemplate spelling).isSome then
    speller.registries.templateNames spelling
  else
    let qualified := speller.tree.qualifiedName id
    Text.freeNames (if Text.endsWith spelling qualified then qualified else spelling)

def recordNames (speller : Speller) (type : TypeId) (id : DeclId) : List String :=
  let tree := speller.tree
  let prefixed := Spelling.prefixScope (tree.type type).spelling (tree.qualifiedName id)
  let canonical := (tree.type (tree.canonical type)).spelling
  (Text.freeNames (Spelling.withCanonicalArgs prefixed canonical)).flatMap
    speller.registries.leavings

/-- The free names of a type that is reached through a name, without its qualifiers. -/
def namedNames (speller : Speller) (type : TypeId) : List String :=
  let spelling := (speller.tree.type type).spelling
  match speller.tree.typeDeclaration type with
  | none => Text.freeNames spelling
  | some id =>
      match (speller.tree.decl id).kind with
      | .classTemplate | .partialSpecialization => speller.templateNames spelling id
      | .typedefDecl | .typeAlias => speller.typedefNames spelling id
      | .enumDecl => Text.freeNames (speller.tree.qualifiedName id)
      | .classDecl | .structDecl | .unionDecl => speller.recordNames type id
      | _ => Text.freeNames spelling

/-- The name that a qualifier adds. -/
def constNames (isConst : Bool) : List String :=
  if isConst then ["const"] else []

/-- The free names of a type, its parts followed for a number of steps. -/
def namesTo (speller : Speller) : Nat → TypeId → List String
  | 0, id => Text.freeNames (speller.tree.type id).bareSpelling
  | depth + 1, id =>
      let type := speller.tree.type id
      match type.kind with
      | .lvalueRef | .rvalueRef =>
          match type.pointee with
          | some pointee => speller.namesTo depth pointee
          | none => Text.freeNames type.bareSpelling
      | .pointer =>
          match type.pointee with
          | none => Text.freeNames type.bareSpelling
          | some pointee =>
              constNames type.isConst ++
                match functionBehind? speller.tree pointee with
                | some function =>
                    (function.result.map (speller.namesTo depth)).getD ["void"]
                      ++ function.params.flatMap (speller.namesTo depth)
                | none => speller.namesTo depth pointee
      | .constantArray | .incompleteArray =>
          match type.pointee with
          | none => Text.freeNames type.bareSpelling
          | some element => constNames type.isConst ++ speller.namesTo depth element
      | .elaborated | .typedefName | .record | .enum | .unexposed =>
          constNames type.isConst ++ speller.namedNames id
      | .builtin | .functionProto | .templateParameter | .dependent =>
          Text.freeNames type.bareSpelling

def names (speller : Speller) (id : TypeId) : List String :=
  speller.namesTo (speller.tree.types.size + 1) id

/-- The registered names of a type that still lack the scopes of their longer form. -/
def leftNames (speller : Speller) (id : TypeId) : List String :=
  (speller.names id).filter fun name => (speller.registries.longerName? name).isSome

variable {tree : DeclTree}

theorem freeNames_spellTypedef (plain : tree.HasPlainNames) (spelling : String) (id : DeclId) :
    Text.freeNames ((ofTree tree).spellTypedef spelling id) =
      (ofTree tree).typedefNames spelling id := by
  have written := TypeRegistries.freeNames_qualifyTemplateTo plain (spelling.length + 1) spelling
  rw [spellTypedef, typedefNames]
  split
  · rfl
  · split
    · exact written
    · rfl

theorem freeNames_spellTemplate (plain : tree.HasPlainNames) (spelling : String) (id : DeclId) :
    Text.freeNames ((ofTree tree).spellTemplate spelling id) =
      (ofTree tree).templateNames spelling id :=
  TypeRegistries.freeNames_qualifyTypenames plain ((ofTree tree).templateText spelling id)

theorem freeNames_spellRecord (plain : tree.HasPlainNames) (type : TypeId) (id : DeclId) :
    Text.freeNames ((ofTree tree).spellRecord type id) = (ofTree tree).recordNames type id :=
  TypeRegistries.freeNames_qualifyNames plain _

theorem freeNames_spellNamed (plain : tree.HasPlainNames) (type : TypeId) :
    Text.freeNames ((ofTree tree).spellNamed type) = (ofTree tree).namedNames type := by
  rw [spellNamed, namedNames]
  cases (ofTree tree).tree.typeDeclaration type with
  | none => rfl
  | some id =>
      dsimp only
      cases ((ofTree tree).tree.decl id).kind <;>
        simp only [freeNames_spellTemplate plain, freeNames_spellTypedef plain,
          freeNames_spellRecord plain]

theorem mem_freeNames_withConst (isConst : Bool) (text name : String) :
    name ∈ Text.freeNames (Spelling.withConst isConst text) ↔
      name ∈ constNames isConst ++ Text.freeNames text := by
  cases isConst with
  | false => rfl
  | true =>
      cases starts : Text.startsWith "const " text with
      | false =>
          have added : Spelling.withConst true text = "const " ++ text := by
            simp [Spelling.withConst, starts]
          rw [added, Text.freeNames_const_append]
          rfl
      | true =>
          obtain ⟨rest, whole⟩ := List.isPrefixOf_iff_prefix.mp starts
          have own : text = "const " ++ String.ofList rest := by
            rw [← String.toList_inj, ← whole]
            simp
          have kept : Spelling.withConst true text = text := by
            simp [Spelling.withConst, starts]
          rw [kept, own, Text.freeNames_const_append]
          simp [constNames]

theorem mem_freeNames_pointer {c : Char} (separator : Chars.isSeparator c = true)
    (isConst : Bool) (core name : String) :
    name ∈ Text.freeNames (if isConst then core ++ String.singleton c ++ " const"
        else core ++ String.singleton c) ↔
      name ∈ constNames isConst ++ Text.freeNames core := by
  cases isConst with
  | false =>
      have bare := Text.freeNames_append separator core ""
      rw [String.append_empty] at bare
      have nothing : Text.freeNames "" = [] := Text.freeNames_of_nameless (by decide)
      rw [if_neg Bool.false_ne_true, bare, nothing, List.append_nil]
      rfl
  | true =>
      rw [if_pos rfl, Text.freeNames_append_const separator]
      simp [constNames, or_comm]

theorem freeNames_function (result : String) (params : List String) :
    Text.freeNames (result ++ " (*)(" ++ Text.joinArgs params) =
      Text.freeNames result ++ params.flatMap Text.freeNames := by
  have opening := Text.freeNames_append (c := '(') (by decide) (result ++ " (*)")
    (Text.joinArgs params)
  have parts : result ++ " (*)" ++ String.singleton '(' = result ++ " (*)(" := by
    rw [String.append_assoc]
    rfl
  rw [parts, Text.freeNames_append_of_nameless result (by decide), Text.freeNames_joinArgs]
    at opening
  exact opening

theorem freeNames_array (element : String) (size : Option Nat) :
    Text.freeNames (element ++ "[" ++ (size.map toString).getD "" ++ "]") =
      Text.freeNames element := by
  have opening := Text.freeNames_append (c := '[') (by decide) element
    ((size.map toString).getD "")
  have number : Text.freeNames ((size.map toString).getD "") = [] := by
    cases size with
    | none => exact Text.freeNames_of_nameless (by decide)
    | some n => exact Text.freeNames_toString n
  rw [number, List.append_nil] at opening
  rw [Text.freeNames_append_of_nameless _ (by decide)]
  exact opening

section

variable {depth : Nat}

/-- At a depth the free names of a spelling are those that the parts of the type hand on. -/
def HandsOn (speller : Speller) (depth : Nat) : Prop :=
  ∀ id name, name ∈ Text.freeNames (speller.spellTo depth id) ↔ name ∈ speller.namesTo depth id

namespace HandsOn

variable {speller : Speller} (handsOn : speller.HandsOn depth) (name : String)

include handsOn

theorem mem_reference (pointee : TypeId) {mark : String}
    (nameless : mark.toList.any Chars.isIdentChar = false) :
    name ∈ Text.freeNames (speller.spellTo depth pointee ++ mark) ↔
      name ∈ speller.namesTo depth pointee := by
  rw [Text.freeNames_append_of_nameless _ nameless, handsOn]

theorem mem_array (isConst : Bool) (element : TypeId) (size : Option Nat) :
    name ∈ Text.freeNames (Spelling.withConst isConst
        (speller.spellTo depth element ++ "[" ++ (size.map toString).getD "" ++ "]")) ↔
      name ∈ constNames isConst ++ speller.namesTo depth element := by
  rw [mem_freeNames_withConst, freeNames_array, List.mem_append, List.mem_append, handsOn]

theorem mem_params (params : List TypeId) (isVariadic : Bool) :
    name ∈ (if isVariadic then params.map (speller.spellTo depth) ++ ["..."]
        else params.map (speller.spellTo depth)).flatMap Text.freeNames ↔
      name ∈ params.flatMap (speller.namesTo depth) := by
  have dots : Text.freeNames "..." = [] := Text.freeNames_of_nameless (by decide)
  have same : ∀ id, name ∈ Text.freeNames (speller.spellTo depth id) ↔
      name ∈ speller.namesTo depth id := fun id => handsOn id name
  cases isVariadic <;> simp [dots, same]

theorem mem_result (type : Option TypeId) :
    name ∈ Text.freeNames ((type.map (speller.spellTo depth)).getD "void") ↔
      name ∈ (type.map (speller.namesTo depth)).getD ["void"] := by
  have void : Text.freeNames "void" = ["void"] :=
    Text.freeNames_word (by decide) (by decide) (by decide)
  cases type with
  | none => simp [void]
  | some type => exact handsOn type name

end HandsOn

theorem mem_freeNames_named (plain : tree.HasPlainNames) (isConst : Bool) (id : TypeId)
    (name : String) :
    name ∈ Text.freeNames (Spelling.withConst isConst ((ofTree tree).spellNamed id)) ↔
      name ∈ constNames isConst ++ (ofTree tree).namedNames id := by
  rw [mem_freeNames_withConst, freeNames_spellNamed plain]

/-- The free names of a spelling are those that the parts of the type hand on. -/
theorem handsOn_ofTree (plain : tree.HasPlainNames) (depth : Nat) :
    (ofTree tree).HandsOn depth := by
  induction depth with
  | zero => exact fun _ _ => Iff.rfl
  | succ depth ih =>
      intro id name
      rw [spellTo, namesTo]
      dsimp only
      cases ((ofTree tree).tree.type id).kind with
      | builtin | functionProto | templateParameter | dependent => rfl
      | elaborated | typedefName | record | enum | unexposed =>
          exact mem_freeNames_named plain _ id name
      | lvalueRef =>
          cases ((ofTree tree).tree.type id).pointee with
          | none => rfl
          | some pointee => exact ih.mem_reference name pointee (by decide)
      | rvalueRef =>
          cases ((ofTree tree).tree.type id).pointee with
          | none => rfl
          | some pointee => exact ih.mem_reference name pointee (by decide)
      | constantArray | incompleteArray =>
          cases ((ofTree tree).tree.type id).pointee with
          | none => rfl
          | some element => exact ih.mem_array name _ element _
      | pointer =>
          cases ((ofTree tree).tree.type id).pointee with
          | none => rfl
          | some pointee =>
              dsimp only
              cases functionBehind? (ofTree tree).tree pointee with
              | none =>
                  refine (mem_freeNames_pointer (c := '*') (by decide) _ _ name).trans ?_
                  rw [List.mem_append, List.mem_append, ih]
              | some function =>
                  refine (mem_freeNames_pointer (c := ')') (by decide) _ _ name).trans ?_
                  rw [freeNames_function, List.mem_append, List.mem_append, List.mem_append,
                    List.mem_append, ih.mem_params, ih.mem_result]

end

/-- Every identifier in a spelling that is registered under a longer name stands behind `::` or is
exempt, exactly if the passes over the type leave no such name but exempt ones. -/
theorem names_are_scoped_iff (plain : tree.HasPlainNames) (type : TypeId)
    (exempt : List String) :
    (∀ name ∈ Text.freeNames ((ofTree tree).spell type),
        ((TypeRegistries.ofTree tree).longerName? name).isSome = true → name ∈ exempt) ↔
      ∀ name ∈ (ofTree tree).leftNames type, name ∈ exempt := by
  have same := handsOn_ofTree plain (tree.types.size + 1) type
  constructor
  · intro behind name left
    obtain ⟨member, longer⟩ := List.mem_filter.mp left
    exact behind name ((same name).mpr member) longer
  · intro spared name member longer
    exact spared name (List.mem_filter.mpr ⟨(same name).mp member, longer⟩)

/-- The spelling of a class leaves no registered name, if the qualified names that are written out do
not start with one. -/
theorem longerName?_of_mem_recordNames
    (fronts : ∀ id, TypeRegistries.namesType tree id = true →
      ∀ name ∈ Text.freeNames (tree.qualifiedName id),
        (TypeRegistries.ofTree tree).longerName? name = none)
    (type : TypeId) (id : DeclId) :
    ∀ name ∈ (ofTree tree).recordNames type id,
      (TypeRegistries.ofTree tree).longerName? name = none := by
  intro name member
  obtain ⟨word, -, left⟩ := List.mem_flatMap.mp member
  rw [TypeRegistries.leavings] at left
  cases longer : (ofTree tree).registries.longerName? word with
  | none =>
      simp only [longer, List.mem_singleton] at left
      rw [left]
      exact longer
  | some full =>
      obtain ⟨-, target, names, rfl, -, -⟩ := TypeRegistries.exists_of_longerName? longer
      simp only [longer] at left
      exact fronts target names name left

/-- Two class templates in a namespace, and an instantiation of one by the other. -/
def nestedTree : DeclTree :=
  ((TreeBuilder.start "/src/unit.hpp").performAll
    [.add 0 .namespaceDecl "cv",
     .classTemplate 1 "Point_" ["_Tp"],
     .classTemplate 1 "Vec" ["_Tp"],
     .specialization 4 "Point_<int>",
     .named 6,
     .recordAs 4 "Vec<Point_<_Tp>>"]).tree

theorem nestedTree_hasPlainNames : nestedTree.HasPlainNames := by
  have inside : ∀ id < nestedTree.size, TypeRegistries.namesType nestedTree id = true →
      (nestedTree.qualifiedName id).toList.head?.all Chars.isSolid = true := by
    decide +kernel
  exact fun id names => inside id (TypeRegistries.lt_size_of_namesType names) names

theorem nested_instantiation_is_scoped :
    (∀ name ∈ Text.freeNames ((ofTree nestedTree).spell 1),
      ((TypeRegistries.ofTree nestedTree).longerName? name).isSome = true → name ∈ ["_Tp"]) ∧
      (ofTree nestedTree).spell 1 = "cv::Vec<cv::Point_<int>>" :=
  ⟨(names_are_scoped_iff nestedTree_hasPlainNames 1 ["_Tp"]).mpr (by decide +kernel),
    by decide +kernel⟩

/-- Written in the body of a template, the argument keeps its simple name. -/
theorem dependent_argument_is_left :
    nestedTree.typeDeclaration 3 = some 4 ∧
      (ofTree nestedTree).spell 3 = "cv::Vec<Point_<_Tp>>" ∧
      "Point_" ∈ Text.freeNames ((ofTree nestedTree).spell 3) ∧
      (TypeRegistries.ofTree nestedTree).longerName? "Point_" = some "cv::Point_" ∧
      "Point_" ∉ nestedTree.parameterNames 4 := by
  refine ⟨?_, ?_, ?_, ?_, ?_⟩ <;> decide +kernel

end Speller

end Bindery
