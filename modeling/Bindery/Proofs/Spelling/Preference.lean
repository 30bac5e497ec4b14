import Bindery.Proofs.Spelling.Names
import Bindery.Tree.Build
import Mathlib.Data.List.Induction
import Mathlib.Data.Nat.Find

/-!
# Preferred names

A registry holds one entry for each key: the first from outside the standard library, or the first
at all where the standard library has them all.  This is what the entries that come one after the
other leave behind, and it is read off the declarations in their order.
-/

set_option autoImplicit false

namespace Bindery

/-! ## Entries of one key -/

namespace Registered

variable {α : Type}

/-- The entry that a registry holds for a key. -/
def stored? (entries : List (Registered α)) (key : String) : Option (Registered α) :=
  entries.find? (·.key == key)

/-- The entry that stays when another comes for its key. -/
def keep (existing : Option (Registered α)) (entry : Registered α) : Registered α :=
  match existing with
  | none => entry
  | some existing => if existing.isStd && !entry.isStd then entry else existing

/-- The first entry from outside the standard library, or the first at all. -/
def preferred (entries : List (Registered α)) : Option (Registered α) :=
  (entries.find? (!·.isStd)).or entries.head?

theorem stored?_insert_self (entries : List (Registered α)) (entry : Registered α) :
    stored? (insert entries entry) entry.key = some (keep (stored? entries entry.key) entry) := by
  rw [insert, stored?, stored?]
  cases found : entries.find? (·.key == entry.key) with
  | none => simp [keep, found]
  | some existing =>
      have held := List.find?_some found
      dsimp only [keep]
      split
      case isTrue =>
        have keyed : (fun other : Registered α =>
            (if (other.key == entry.key) = true then entry else other).key == entry.key) =
              (·.key == entry.key) := by
          funext other
          cases own : other.key == entry.key <;> simp [own]
        rw [List.find?_map, Function.comp_def, keyed, found, Option.map_some, if_pos held]
      case isFalse => exact found

theorem stored?_insert_of_ne (entries : List (Registered α)) {entry : Registered α} {key : String}
    (other : entry.key ≠ key) : stored? (insert entries entry) key = stored? entries key := by
  rw [insert, stored?, stored?]
  split
  · simp [List.find?_append, other]
  · split
    case isFalse => rfl
    case isTrue =>
      have keyed : (fun held : Registered α =>
          (if (held.key == entry.key) = true then entry else held).key == key) =
            (·.key == key) := by
        funext held
        by_cases own : held.key = entry.key <;> simp [own]
      rw [List.find?_map, Function.comp_def, keyed]
      cases found : entries.find? (·.key == key) with
      | none => rfl
      | some held =>
          have isHeld : held.key = key := by simpa using List.find?_some found
          rw [Option.map_some, if_neg]
          simpa [isHeld] using Ne.symm other

theorem preferred_concat (entries : List (Registered α)) (entry : Registered α) :
    preferred (entries ++ [entry]) = some (keep (preferred entries) entry) := by
  rw [preferred, preferred, List.find?_append]
  cases own : entries.find? (!·.isStd) with
  | some first =>
      have outside : first.isStd = false := by simpa using List.find?_some own
      simp [keep, outside]
  | none =>
      have allStd := List.find?_eq_none.mp own
      cases entries with
      | nil => cases isStd : entry.isStd <;> simp [keep, isStd]
      | cons first others =>
          have isStd : first.isStd = true := by simpa using allStd first List.mem_cons_self
          cases isStdNew : entry.isStd <;> simp [keep, isStd, isStdNew]

/-- What entries that come one after the other leave for a key. -/
theorem stored?_foldl_insert (added : List (Registered α)) (key : String) :
    stored? (added.foldl insert []) key = preferred (added.filter (·.key == key)) := by
  induction added using List.reverseRecOn with
  | nil => rfl
  | append_singleton added entry ih =>
      rw [List.foldl_append, List.foldl_cons, List.foldl_nil, List.filter_append]
      by_cases same : entry.key = key
      · subst same
        have own : [entry].filter (·.key == entry.key) = [entry] := by simp
        rw [stored?_insert_self, ih, own, preferred_concat]
      · have none : [entry].filter (·.key == key) = [] := by simp [same]
        rw [stored?_insert_of_ne _ same, ih, none, List.append_nil]

end Registered

/-! ## Declarations in their order -/

namespace DeclTree

/-- The first declaration with a property. -/
structure IsFirst (tree : DeclTree) (p : DeclId → Prop) (id : DeclId) : Prop where
  inside : id < tree.size
  holds : p id
  before : ∀ other < id, ¬ p other

/-- The first declaration with a property that is not from the standard library, or the first at all
if every one of them is. -/
inductive IsPreferred (tree : DeclTree) (p : DeclId → Prop) (id : DeclId) : Prop
  | own (first : tree.IsFirst (fun other => p other ∧ tree.isStd other = false) id)
  | std (allStd : ∀ other < tree.size, p other → tree.isStd other = true)
      (first : tree.IsFirst p id)

/-- A typedef or alias with a name and outside class templates. -/
structure IsNamedAlias (tree : DeclTree) (id : DeclId) : Prop where
  kind : (tree.decl id).kind = .typedefDecl ∨ (tree.decl id).kind = .typeAlias
  named : (tree.decl id).anonymous = false
  outside : tree.inClassTemplate id = false

/-- A named alias of a type with the given canonical spelling. -/
def AliasesType (tree : DeclTree) (canonical : String) (id : DeclId) : Prop :=
  tree.IsNamedAlias id ∧
    ∃ type, (tree.decl id).underlyingType = some type ∧ tree.canonicalSpelling type = canonical

/-- A named alias or a class template of the given name. -/
def NamesType (tree : DeclTree) (simple : String) (id : DeclId) : Prop :=
  (tree.IsNamedAlias id ∨
      (tree.decl id).kind = .classTemplate ∧ (tree.decl id).anonymous = false) ∧
    (tree.decl id).spelling = simple

variable {tree : DeclTree}

theorem find?_ids_eq_some_iff {p : DeclId → Bool} {id : DeclId} :
    tree.ids.find? p = some id ↔ tree.IsFirst (fun other => p other = true) id := by
  rw [ids, List.find?_range_eq_some]
  constructor
  · rintro ⟨holds, inside, before⟩
    exact ⟨List.mem_range.mp inside, holds, fun other less => by simpa using before other less⟩
  · rintro ⟨inside, holds, before⟩
    exact ⟨holds, List.mem_range.mpr inside, fun other less => by simpa using before other less⟩

theorem IsFirst.congr {p q : DeclId → Prop} (same : ∀ id, p id ↔ q id) {id : DeclId} :
    tree.IsFirst p id ↔ tree.IsFirst q id := by
  rw [funext fun id => propext (same id)]

theorem exists_isFirst {p : DeclId → Prop} (some : ∃ id < tree.size, p id) :
    ∃ id, tree.IsFirst p id := by
  classical
  obtain ⟨inside, holds⟩ := Nat.find_spec some
  refine ⟨Nat.find some, inside, holds, fun other less isOther => ?_⟩
  exact Nat.find_min some less ⟨less.trans inside, isOther⟩

theorem exists_isPreferred_iff {p : DeclId → Prop} :
    (∃ id, tree.IsPreferred p id) ↔ ∃ id < tree.size, p id := by
  constructor
  · rintro ⟨id, first | ⟨-, first⟩⟩
    · exact ⟨id, first.inside, first.holds.1⟩
    · exact ⟨id, first.inside, first.holds⟩
  · intro some
    by_cases own : ∃ id < tree.size, p id ∧ tree.isStd id = false
    · obtain ⟨id, first⟩ := exists_isFirst own
      exact ⟨id, .own first⟩
    · obtain ⟨id, first⟩ := exists_isFirst some
      refine ⟨id, .std (fun other inside holds => ?_) first⟩
      by_contra outside
      exact own ⟨other, inside, holds, Bool.not_eq_true _ ▸ outside⟩

theorem IsPreferred.holds {p : DeclId → Prop} {id : DeclId} (preferred : tree.IsPreferred p id) :
    p id := by
  cases preferred with
  | own first => exact first.holds.1
  | std _ first => exact first.holds

theorem isNamedAlias_iff {id : DeclId} :
    tree.IsNamedAlias id ↔ TypeRegistries.isPlainTypedef tree id = true := by
  simp only [TypeRegistries.isPlainTypedef, Bool.and_eq_true, Bool.or_eq_true, beq_iff_eq,
    Bool.not_eq_true']
  constructor
  · intro own
    exact ⟨⟨own.kind, own.named⟩, own.outside⟩
  · rintro ⟨⟨kind, named⟩, outside⟩
    exact ⟨kind, named, outside⟩

theorem aliasesType_iff {canonical : String} {id : DeclId} :
    tree.AliasesType canonical id ↔
      ∃ entry, TypeRegistries.registeredType? tree id = some entry ∧ entry.key = canonical := by
  rw [AliasesType, isNamedAlias_iff, TypeRegistries.registeredType?]
  cases TypeRegistries.isPlainTypedef tree id with
  | false => simp
  | true => cases (tree.decl id).underlyingType <;> simp

theorem namesType_iff {simple : String} {id : DeclId} :
    tree.NamesType simple id ↔
      ∃ entry, TypeRegistries.registeredName? tree id = some entry ∧ entry.key = simple := by
  have named : TypeRegistries.namesType tree id = true ↔ (tree.IsNamedAlias id ∨
      (tree.decl id).kind = .classTemplate ∧ (tree.decl id).anonymous = false) := by
    simp [TypeRegistries.namesType, isNamedAlias_iff]
  rw [NamesType, ← named, TypeRegistries.registeredName?]
  cases TypeRegistries.namesType tree id <;> simp

section

variable {α : Type} {register : DeclId → Option (Registered α)} {key : String}

/-- The first entry of a key with a property is that of the first declaration that has such a one. -/
theorem find?_registered_eq_some_iff {p : Registered α → Bool} {entry : Registered α} :
    ((tree.ids.filterMap register).filter (·.key == key)).find? p = some entry ↔
      ∃ id, tree.IsFirst
          (fun id => ∃ entry, register id = some entry ∧ entry.key = key ∧ p entry = true) id ∧
        register id = some entry := by
  have holds : ∀ id, ((register id).filter (·.key == key)).any p = true ↔
      ∃ entry, register id = some entry ∧ entry.key = key ∧ p entry = true := by
    intro id
    rw [Option.any_eq_true]
    simp only [Option.filter_eq_some_iff, beq_iff_eq, and_assoc]
  have first : ∀ id, tree.ids.find? (fun id => ((register id).filter (·.key == key)).any p) =
      some id ↔ tree.IsFirst
        (fun id => ∃ entry, register id = some entry ∧ entry.key = key ∧ p entry = true) id :=
    fun id => find?_ids_eq_some_iff.trans (IsFirst.congr holds)
  rw [List.filter_filterMap, List.find?_filterMap, Option.bind_eq_some_iff]
  simp only [first, Option.filter_eq_some_iff, beq_iff_eq]
  refine exists_congr fun id => and_congr_right fun isFirst => and_iff_left_of_imp ?_
  intro registered
  obtain ⟨_, same, keyed, -⟩ := isFirst.holds
  cases same.symm.trans registered
  exact keyed

theorem isPreferred_iff_of_stamped {candidate : DeclId → Prop}
    (registers : ∀ id, candidate id ↔ ∃ entry, register id = some entry ∧ entry.key = key)
    (stamped : ∀ id entry, register id = some entry → entry.isStd = tree.isStd id)
    {entry : Registered α} :
    Registered.preferred ((tree.ids.filterMap register).filter (·.key == key)) = some entry ↔
      ∃ id, tree.IsPreferred candidate id ∧ register id = some entry := by
  have outside : ∀ id, (∃ entry, register id = some entry ∧ entry.key = key ∧
      (!entry.isStd) = true) ↔ candidate id ∧ tree.isStd id = false := by
    intro id
    rw [registers]
    constructor
    · rintro ⟨entry, registered, keyed, outside⟩
      rw [stamped id entry registered, Bool.not_eq_true'] at outside
      exact ⟨⟨entry, registered, keyed⟩, outside⟩
    · rintro ⟨⟨entry, registered, keyed⟩, outside⟩
      refine ⟨entry, registered, keyed, ?_⟩
      rw [stamped id entry registered, outside, Bool.not_false]
  have all : ∀ id, (∃ entry, register id = some entry ∧ entry.key = key ∧ true = true) ↔
      candidate id := by
    intro id
    simp [registers]
  set entries := (tree.ids.filterMap register).filter (·.key == key) with filtered
  have own : entries.find? (!·.isStd) = some entry ↔ ∃ id,
      tree.IsFirst (fun id => candidate id ∧ tree.isStd id = false) id ∧
        register id = some entry :=
    find?_registered_eq_some_iff.trans
      (exists_congr fun _ => and_congr_left fun _ => IsFirst.congr outside)
  have first : entries.head? = some entry ↔ ∃ id,
      tree.IsFirst candidate id ∧ register id = some entry := by
    have head : entries.head? = entries.find? fun _ => true := by cases entries <;> rfl
    rw [head]
    exact find?_registered_eq_some_iff.trans
      (exists_congr fun _ => and_congr_left fun _ => IsFirst.congr all)
  have noneOwn : entries.find? (!·.isStd) = none ↔
      ∀ id < tree.size, candidate id → tree.isStd id = true := by
    simp only [List.find?_eq_none, filtered, List.mem_filter, List.mem_filterMap, ids,
      List.mem_range, beq_iff_eq, Bool.not_eq_true', Bool.not_eq_false]
    constructor
    · intro allStd id inside isCandidate
      obtain ⟨entry, registered, keyed⟩ := (registers id).mp isCandidate
      rw [← stamped id entry registered]
      exact allStd entry ⟨⟨id, inside, registered⟩, keyed⟩
    · rintro allStd entry ⟨⟨id, inside, registered⟩, keyed⟩
      rw [stamped id entry registered]
      exact allStd id inside ((registers id).mpr ⟨entry, registered, keyed⟩)
  rw [Registered.preferred, Option.or_eq_some_iff, own, noneOwn, first]
  constructor
  · rintro (⟨id, isFirst, registered⟩ | ⟨allStd, id, isFirst, registered⟩)
    · exact ⟨id, .own isFirst, registered⟩
    · exact ⟨id, .std allStd isFirst, registered⟩
  · rintro ⟨id, isFirst | ⟨allStd, isFirst⟩, registered⟩
    · exact .inl ⟨id, isFirst, registered⟩
    · exact .inr ⟨allStd, id, isFirst, registered⟩

/-- A registry answers with what is registered for the preferred declaration. -/
theorem find?_foldl_insert_eq_some_iff {candidate : DeclId → Prop} {value : DeclId → α}
    (registers : ∀ id, candidate id ↔ ∃ entry, register id = some entry ∧ entry.key = key)
    (stamped : ∀ id entry, register id = some entry →
      entry.value = value id ∧ entry.isStd = tree.isStd id) {result : α} :
    Registered.find? ((tree.ids.filterMap register).foldl Registered.insert []) key =
        some result ↔
      ∃ id, tree.IsPreferred candidate id ∧ value id = result := by
  have held := Registered.stored?_foldl_insert (tree.ids.filterMap register) key
  rw [Registered.find?, ← Registered.stored?, held, Option.map_eq_some_iff]
  simp only [isPreferred_iff_of_stamped registers fun id entry found => (stamped id entry found).2]
  constructor
  · rintro ⟨entry, ⟨id, preferred, found⟩, rfl⟩
    exact ⟨id, preferred, (stamped id entry found).1.symm⟩
  · rintro ⟨id, preferred, rfl⟩
    obtain ⟨entry, found, -⟩ := (registers id).mp preferred.holds
    exact ⟨entry, ⟨id, preferred, found⟩, (stamped id entry found).1⟩

end

/-- `wider` has the declarations of `tree` in their order, each at its place, and what it has besides
them is from the standard library. -/
structure AddsStd (tree wider : DeclTree) (place : DeclId → DeclId) : Prop where
  inside : ∀ id < tree.size, place id < wider.size
  ordered : ∀ id < tree.size, ∀ earlier < id, place earlier < place id
  aliases : ∀ id < tree.size, ∀ canonical,
    wider.AliasesType canonical (place id) ↔ tree.AliasesType canonical id
  names : ∀ id < tree.size, ∀ simple, wider.NamesType simple (place id) ↔ tree.NamesType simple id
  qualifiedName : ∀ id < tree.size, wider.qualifiedName (place id) = tree.qualifiedName id
  isStd : ∀ id < tree.size, wider.isStd (place id) = tree.isStd id
  added : ∀ id < wider.size, (∀ other < tree.size, place other ≠ id) → wider.isStd id = true

/-- Additions from the standard library come before no declaration of a user's own. -/
theorem AddsStd.isFirst {wider : DeclTree} {place : DeclId → DeclId}
    (adds : tree.AddsStd wider place) {p q : DeclId → Prop}
    (same : ∀ id < tree.size, q (place id) ↔ p id) {id : DeclId}
    (first : tree.IsFirst (fun id => p id ∧ tree.isStd id = false) id) :
    wider.IsFirst (fun id => q id ∧ wider.isStd id = false) (place id) := by
  obtain ⟨inside, ⟨holds, own⟩, before⟩ := first
  refine ⟨adds.inside id inside, ⟨(same id inside).mpr holds, ?_⟩, ?_⟩
  · rw [adds.isStd id inside, own]
  · rintro other less ⟨holdsThere, ownThere⟩
    by_cases placed : ∃ earlier < tree.size, place earlier = other
    · obtain ⟨earlier, insideToo, rfl⟩ := placed
      have ahead : earlier < id := by
        by_contra behind
        rcases Nat.lt_or_eq_of_le (Nat.le_of_not_lt behind) with later | rfl
        · exact Nat.lt_asymm less (adds.ordered earlier insideToo id later)
        · exact Nat.lt_irrefl _ less
      rw [adds.isStd earlier insideToo] at ownThere
      exact before earlier ahead ⟨(same earlier insideToo).mp holdsThere, ownThere⟩
    · have isStd := adds.added other (less.trans (adds.inside id inside))
        fun earlier insideToo placedThere => placed ⟨earlier, insideToo, placedThere⟩
      rw [isStd] at ownThere
      cases ownThere

end DeclTree

/-! ## The two registries -/

namespace TypeRegistries

open DeclTree

variable {tree : DeclTree} {key : String}

theorem typedefFor?_eq_some_iff {id : DeclId} :
    (ofTree tree).typedefFor? key = some id ↔ tree.IsPreferred (tree.AliasesType key) id := by
  have stamped : ∀ id entry, registeredType? tree id = some entry →
      entry.value = id ∧ entry.isStd = tree.isStd id := by
    intro id entry found
    rw [registeredType?, Option.ite_none_right_eq_some, Option.map_eq_some_iff] at found
    obtain ⟨-, type, -, rfl⟩ := found
    exact ⟨rfl, rfl⟩
  rw [typedefFor?, ofTree, find?_foldl_insert_eq_some_iff (fun _ => aliasesType_iff) stamped]
  simp

theorem qualifiedName?_eq_some_iff {full : String} :
    (ofTree tree).qualifiedName? key = some full ↔
      ∃ id, tree.IsPreferred (tree.NamesType key) id ∧ tree.qualifiedName id = full := by
  have stamped : ∀ id entry, registeredName? tree id = some entry →
      entry.value = tree.qualifiedName id ∧ entry.isStd = tree.isStd id := by
    intro id entry found
    rw [registeredName?, Option.ite_none_right_eq_some] at found
    obtain ⟨-, same⟩ := found
    cases same
    exact ⟨rfl, rfl⟩
  exact find?_foldl_insert_eq_some_iff (fun _ => namesType_iff) stamped

theorem typedefFor?_eq_none_iff :
    (ofTree tree).typedefFor? key = none ↔ ∀ id < tree.size, ¬ tree.AliasesType key id := by
  simp only [Option.eq_none_iff_forall_ne_some, ne_eq, typedefFor?_eq_some_iff, ← not_exists,
    exists_isPreferred_iff]
  simp

theorem qualifiedName?_eq_none_iff :
    (ofTree tree).qualifiedName? key = none ↔ ∀ id < tree.size, ¬ tree.NamesType key id := by
  simp only [Option.eq_none_iff_forall_ne_some, ne_eq, qualifiedName?_eq_some_iff]
  have some : (∃ full id, tree.IsPreferred (tree.NamesType key) id ∧
      tree.qualifiedName id = full) ↔ ∃ id < tree.size, tree.NamesType key id := by
    rw [← exists_isPreferred_iff]
    simp
  rw [← not_exists, some]
  simp

/-- A key of a user's own keeps its answers when the standard library adds to a tree. -/
theorem answers_of_addsStd {wider : DeclTree} {place : DeclId → DeclId}
    (adds : tree.AddsStd wider place) :
    ((∃ id < tree.size, tree.AliasesType key id ∧ tree.isStd id = false) →
      (ofTree wider).typedefFor? key = ((ofTree tree).typedefFor? key).map place) ∧
    ((∃ id < tree.size, tree.NamesType key id ∧ tree.isStd id = false) →
      (ofTree wider).qualifiedName? key = (ofTree tree).qualifiedName? key) := by
  constructor
  · intro own
    obtain ⟨id, first⟩ := exists_isFirst own
    have firstThere := adds.isFirst (fun id inside => adds.aliases id inside key) first
    rw [typedefFor?_eq_some_iff.mpr (.own first), typedefFor?_eq_some_iff.mpr (.own firstThere)]
    rfl
  · intro own
    obtain ⟨id, first⟩ := exists_isFirst own
    have firstThere := adds.isFirst (fun id inside => adds.names id inside key) first
    rw [qualifiedName?_eq_some_iff.mpr ⟨id, .own first, rfl⟩]
    exact qualifiedName?_eq_some_iff.mpr
      ⟨place id, .own firstThere, adds.qualifiedName id first.inside⟩

/-- Both registries answer with the first declaration of a key that is not from the standard library,
or with the first at all if every one of them is; what the standard library adds changes no other
answer. -/
theorem own_names_are_preferred (tree : DeclTree) (key : String) :
    (∀ id, (ofTree tree).typedefFor? key = some id ↔
      tree.IsPreferred (tree.AliasesType key) id) ∧
    ((ofTree tree).typedefFor? key = none ↔ ∀ id < tree.size, ¬ tree.AliasesType key id) ∧
    (∀ full, (ofTree tree).qualifiedName? key = some full ↔
      ∃ id, tree.IsPreferred (tree.NamesType key) id ∧ tree.qualifiedName id = full) ∧
    ((ofTree tree).qualifiedName? key = none ↔ ∀ id < tree.size, ¬ tree.NamesType key id) ∧
    ∀ wider place, tree.AddsStd wider place →
      ((∃ id < tree.size, tree.AliasesType key id ∧ tree.isStd id = false) →
        (ofTree wider).typedefFor? key = ((ofTree tree).typedefFor? key).map place) ∧
      ((∃ id < tree.size, tree.NamesType key id ∧ tree.isStd id = false) →
        (ofTree wider).qualifiedName? key = (ofTree tree).qualifiedName? key) :=
  ⟨fun _ => typedefFor?_eq_some_iff, typedefFor?_eq_none_iff, fun _ => qualifiedName?_eq_some_iff,
    qualifiedName?_eq_none_iff, fun _ _ adds => answers_of_addsStd adds⟩

/-- A typedef of a user's own, of a name that the standard library has too. -/
def ownTree : DeclTree :=
  ((TreeBuilder.start "/src/unit.hpp").performAll
    [.add 0 .namespaceDecl "cv",
     .builtin "unsigned long",
     .newTypedef .typedefDecl 1 "size_t" 0]).tree

/-- The same typedef behind that of a system header. -/
def includingTree : DeclTree :=
  ((TreeBuilder.start "/src/unit.hpp").performAll
    [.systemHeader true,
     .add 0 .namespaceDecl "std",
     .builtin "unsigned long",
     .newTypedef .typedefDecl 1 "size_t" 0,
     .systemHeader false,
     .add 0 .namespaceDecl "cv",
     .newTypedef .typedefDecl 3 "size_t" 0]).tree

theorem own_typedef_is_preferred :
    (∃ place, ownTree.AddsStd includingTree place) ∧
      (ofTree includingTree).typedefFor? "unsigned long" = some 4 ∧
      (ofTree includingTree).qualifiedName? "size_t" = some "cv::size_t" := by
  let place (id : DeclId) : DeclId := if id = 0 then 0 else id + 2
  have types : ∀ id < ownTree.size, (registeredType? includingTree (place id)).map (·.key) =
      (registeredType? ownTree id).map (·.key) := by
    decide +kernel
  have names : ∀ id < ownTree.size, (registeredName? includingTree (place id)).map (·.key) =
      (registeredName? ownTree id).map (·.key) := by
    decide +kernel
  have adds : ownTree.AddsStd includingTree place := by
    refine ⟨by decide +kernel, by decide +kernel, ?_, ?_, by decide +kernel, by decide +kernel,
      by decide +kernel⟩
    · intro id inside canonical
      rw [aliasesType_iff, aliasesType_iff, ← Option.map_eq_some_iff, ← Option.map_eq_some_iff,
        types id inside]
    · intro id inside simple
      rw [namesType_iff, namesType_iff, ← Option.map_eq_some_iff, ← Option.map_eq_some_iff,
        names id inside]
  have aliased : ownTree.AliasesType "unsigned long" 2 := by
    refine ⟨⟨?_, ?_, ?_⟩, 0, ?_, ?_⟩ <;> decide +kernel
  have named : ownTree.NamesType "size_t" 2 := ⟨.inl aliased.1, by decide +kernel⟩
  obtain ⟨-, -, -, -, sameTypes⟩ := own_names_are_preferred ownTree "unsigned long"
  obtain ⟨-, -, -, -, sameNames⟩ := own_names_are_preferred ownTree "size_t"
  have typedefThere := (sameTypes includingTree place adds).1
    ⟨2, by decide +kernel, aliased, by decide +kernel⟩
  have nameThere := (sameNames includingTree place adds).2
    ⟨2, by decide +kernel, named, by decide +kernel⟩
  refine ⟨⟨place, adds⟩, typedefThere.trans ?_, nameThere.trans ?_⟩ <;> decide +kernel

end TypeRegistries

end Bindery
