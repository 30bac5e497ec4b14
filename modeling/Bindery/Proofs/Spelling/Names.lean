import Bindery.Proofs.Text.Rewriting
import Bindery.Spelling.Speller

/-!
# Registered names

A registered name is the last component of the qualified name that is written for it.  Writing out
the registered names of a spelling makes it longer wherever it changes it.
-/

set_option autoImplicit false

namespace Bindery

/-! ## Kinds of types -/

namespace TypeKind

/-- A type that is written by a name. -/
def isByName : TypeKind → Bool
  | .elaborated | .typedefName | .record | .enum | .unexposed => true
  | _ => false

/-- A type around one other type: a reference, a pointer or an array. -/
def isLayer : TypeKind → Bool
  | .lvalueRef | .rvalueRef | .pointer | .constantArray | .incompleteArray => true
  | _ => false

theorem isByName_eq_false_of_isLayer {kind : TypeKind} (layer : kind.isLayer = true) :
    kind.isByName = false := by
  cases kind <;> first | rfl | cases layer

end TypeKind

namespace Speller

variable (speller : Speller)

theorem spellTo_of_isByName (depth : Nat) {type : TypeId}
    (byName : (speller.tree.type type).kind.isByName = true) :
    speller.spellTo (depth + 1) type =
      Spelling.withConst (speller.tree.type type).isConst (speller.spellNamed type) := by
  rw [spellTo]
  cases kind : (speller.tree.type type).kind <;> first
    | exact absurd (byName.symm.trans (congrArg TypeKind.isByName kind)) (by decide)
    | rfl

/-- The spelling of a reference, pointer or array around what it is built from. -/
def around (type : CppType) (inner : String) : String :=
  match type.kind with
  | .lvalueRef => inner ++ "&"
  | .rvalueRef => inner ++ "&&"
  | .pointer => if type.isConst then inner ++ "*" ++ " const" else inner ++ "*"
  | .constantArray | .incompleteArray =>
      Spelling.withConst type.isConst
        (inner ++ "[" ++ (type.arraySize.map toString).getD "" ++ "]")
  | _ => inner

theorem around_congr {left right : CppType} (kind : right.kind = left.kind)
    (isConst : right.isConst = left.isConst) (arraySize : right.arraySize = left.arraySize)
    (inner : String) : around right inner = around left inner := by
  rw [around, around, kind, isConst, arraySize]

theorem spellTo_of_isLayer (depth : Nat) {type inner : TypeId}
    (layer : (speller.tree.type type).kind.isLayer = true)
    (pointee : (speller.tree.type type).pointee = some inner)
    (noFunction : functionBehind? speller.tree inner = none) :
    speller.spellTo (depth + 1) type =
      around (speller.tree.type type) (speller.spellTo depth inner) := by
  rw [spellTo, around]
  cases kind : (speller.tree.type type).kind <;> first
    | exact absurd (layer.symm.trans (congrArg TypeKind.isLayer kind)) (by decide)
    | simp only [pointee, noFunction]

end Speller

/-! ## Entries of a registry -/

namespace Registered

variable {α : Type}

theorem mem_of_mem_insert {entries : List (Registered α)} {entry other : Registered α}
    (member : other ∈ insert entries entry) : other ∈ entries ∨ other = entry := by
  unfold insert at member
  split at member
  · simpa using member
  · split at member
    · obtain ⟨replaced, found, rfl⟩ := List.mem_map.mp member
      split
      · exact .inr rfl
      · exact .inl found
    · exact .inl member

theorem mem_of_mem_foldl_insert {added : List (Registered α)} :
    ∀ {entries : List (Registered α)} {other : Registered α},
      other ∈ added.foldl insert entries → other ∈ entries ∨ other ∈ added := by
  induction added with
  | nil => exact fun member => .inl member
  | cons entry added ih =>
      intro entries other member
      rcases ih member with present | later
      · rcases mem_of_mem_insert present with before | rfl
        · exact .inl before
        · exact .inr List.mem_cons_self
      · exact .inr (List.mem_cons_of_mem _ later)

theorem exists_of_find?_eq_some {entries : List (Registered α)} {key : String} {value : α}
    (found : find? entries key = some value) :
    ∃ entry ∈ entries, entry.key = key ∧ entry.value = value := by
  obtain ⟨entry, isEntry, rfl⟩ := Option.map_eq_some_iff.mp found
  exact ⟨entry, List.mem_of_find?_eq_some isEntry, by simpa using List.find?_some isEntry, rfl⟩

end Registered

namespace TypeRegistries

variable {tree : DeclTree}

theorem exists_of_qualifiedName? {simple full : String}
    (found : (ofTree tree).qualifiedName? simple = some full) :
    ∃ id, namesType tree id = true ∧ (tree.decl id).spelling = simple ∧
      tree.qualifiedName id = full := by
  obtain ⟨entry, member, rfl, rfl⟩ := Registered.exists_of_find?_eq_some found
  rcases Registered.mem_of_mem_foldl_insert member with before | added
  · cases before
  · obtain ⟨id, -, registered⟩ := List.mem_filterMap.mp added
    rw [registeredName?, Option.ite_none_right_eq_some] at registered
    obtain ⟨names, same⟩ := registered
    cases same
    exact ⟨id, names, rfl, rfl⟩

theorem lt_size_of_namesType {id : DeclId} (names : namesType tree id = true) : id < tree.size := by
  by_contra outside
  have blank : tree.decl id = Decl.make .other "" := by
    exact dif_neg outside
  simp [namesType, isPlainTypedef, blank, Decl.make] at names

theorem spelling_ne_empty_of_namesType {id : DeclId} (names : namesType tree id = true) :
    (tree.decl id).spelling ≠ "" := by
  intro empty
  have anonymous : (tree.decl id).anonymous = true := by simp [Decl.anonymous, empty]
  simp [namesType, isPlainTypedef, anonymous] at names

/-- A longer name has scopes in front of the registered one. -/
theorem exists_of_longerName? {simple full : String}
    (longer : (ofTree tree).longerName? simple = some full) :
    simple ≠ "" ∧ ∃ id, namesType tree id = true ∧ tree.qualifiedName id = full ∧
      tree.scopeComponents id ≠ [] ∧
      full = Text.joinScope (tree.scopeComponents id) ++ "::" ++ simple := by
  obtain ⟨found, differs⟩ := Option.filter_eq_some_iff.mp longer
  obtain ⟨id, names, rfl, rfl⟩ := exists_of_qualifiedName? found
  have nonempty := spelling_ne_empty_of_namesType names
  have whole : tree.qualifiedName id =
      "::".intercalate (tree.scopeComponents id ++ [(tree.decl id).spelling]) := by
    simp [DeclTree.qualifiedName, nonempty]
  have scopes : tree.scopeComponents id ≠ [] := by
    intro none
    rw [whole, none, List.nil_append, String.intercalate_singleton] at differs
    simp at differs
  refine ⟨nonempty, id, names, rfl, scopes, ?_⟩
  rw [whole, String.intercalate_append_of_ne_nil scopes (List.cons_ne_nil _ _),
    String.intercalate_singleton]
  rfl

theorem longerName?_empty : (ofTree tree).longerName? "" = none := by
  cases longer : (ofTree tree).longerName? "" with
  | none => rfl
  | some full => exact absurd rfl (exists_of_longerName? longer).1

/-! ## Writing names out -/

/-- What is written for the characters of a name. -/
def meaning (registries : TypeRegistries) (word : List Char) : Option (List Char) :=
  (registries.longerName? (String.ofList word)).map String.toList

theorem toList_qualifyNames (registries : TypeRegistries) (spelling : String) :
    (registries.qualifyNames spelling).toList =
      Chars.replaceWords registries.meaning [] spelling.toList := by
  rw [qualifyNames, Text.replaceIdentifiers, Chars.replaceIdentifiers_eq_replaceWords,
    String.toList_ofList]
  rfl

theorem length_lt_of_meaning (word text : List Char)
    (known : (ofTree tree).meaning word = some text) : word.length < text.length := by
  obtain ⟨full, longer, rfl⟩ := Option.map_eq_some_iff.mp known
  obtain ⟨-, id, -, -, -, rfl⟩ := exists_of_longerName? longer
  simp only [String.toList_append, List.length_append, String.toList_ofList]
  have colons : "::".toList.length = 2 := rfl
  omega

/-- A spelling stays as it is exactly if none of its free names has a longer form. -/
theorem qualifyNames_eq_self_iff (spelling : String) :
    (ofTree tree).qualifyNames spelling = spelling ↔
      ∀ name ∈ Text.freeNames spelling, (ofTree tree).longerName? name = none := by
  have words : Chars.replaceWords (ofTree tree).meaning [] spelling.toList = spelling.toList ↔
      ∀ word ∈ Chars.freeNamesFrom [] spelling.toList, (ofTree tree).meaning word = none :=
    Chars.replaceWords_eq_self_iff length_lt_of_meaning [] spelling.toList
  rw [← toList_qualifyNames, String.toList_inj, ← Chars.freeNames_eq] at words
  rw [words, Text.freeNames, List.forall_mem_map]
  simp only [meaning, Option.map_eq_none_iff]

end TypeRegistries

end Bindery
