import Mathlib.Data.List.Nodup
import Bindery.Binding.Iterators

/-!
# The iterators of a class

A class is iterated forward from `begin` to `end` and backward from `rbegin` to `rend`, in each
direction over variables or over constants.  For each of the four ways the class has a complete pair
of methods or it has none, and the members, the second names and the signatures all follow from
which pairs there are.
-/

set_option autoImplicit false

namespace Bindery

/-- The directions in which a class is iterated. -/
inductive Direction where
  | forward
  | backward
deriving Repr, DecidableEq

namespace Direction

/-- The name of the methods that begin the iteration. -/
def first : Direction → String
  | forward => "begin"
  | backward => "rbegin"

/-- The name of the methods that end the iteration. -/
def last : Direction → String
  | forward => "end"
  | backward => "rend"

def plainName : Direction → String
  | forward => "each"
  | backward => "each_reverse"

/-- The Ruby name of the iterator over variables or over constants. -/
def name (direction : Direction) (isConst : Bool) : String :=
  if isConst then direction.plainName ++ "_const" else direction.plainName

/-- The ways to iterate, in the order in which they are bound. -/
def ways : List (Direction × Bool) :=
  [(forward, false), (forward, true), (backward, false), (backward, true)]

theorem mem_ways (direction : Direction) (isConst : Bool) : (direction, isConst) ∈ ways := by
  cases direction <;> cases isConst <;> decide

theorem name_inj {direction other : Direction} {isConst isConst' : Bool}
    (same : direction.name isConst = other.name isConst') :
    direction = other ∧ isConst = isConst' := by
  revert same
  cases direction <;> cases other <;> cases isConst <;> cases isConst' <;> decide

end Direction

/-! ## Pairs of methods -/

namespace DeclTree

/-- Whether a declaration is a method by which an object can be asked for an iterator of the given
constness: it is public, needs an object, is not deleted and takes no arguments. -/
structure IsIteration (tree : DeclTree) (name : String) (isConst : Bool) (method : DeclId) :
    Prop where
  isMethod : (tree.decl method).kind = .method
  named : (tree.decl method).spelling = name
  onObject : (tree.decl method).has .isStatic = false
  undeleted : (tree.decl method).has .isDeleted = false
  isPublic : (tree.decl method).access = .isPublic
  withoutArguments : tree.parameters method = []
  constness : (tree.decl method).has .isConst = isConst

/-- Whether a class has methods of the given constness that begin and end an iteration. -/
def HasPair (tree : DeclTree) (id : DeclId) (direction : Direction) (isConst : Bool) : Prop :=
  (∃ method ∈ tree.children id, tree.IsIteration direction.first isConst method) ∧
    ∃ method ∈ tree.children id, tree.IsIteration direction.last isConst method

/-- The begin method of one of the ways to iterate a class. -/
def beginOf? (tree : DeclTree) (id : DeclId) (direction : Direction) (isConst : Bool) :
    Option DeclId :=
  tree.beginOfPair? id direction.first direction.last isConst

theorem isSome_boundMethod?_iff (tree : DeclTree) (id : DeclId) (name : String) (isConst : Bool) :
    (tree.boundMethod? id name isConst).isSome ↔
      ∃ method ∈ tree.children id, tree.IsIteration name isConst method := by
  rw [boundMethod?, List.find?_isSome]
  simp only [Bool.and_eq_true, beq_iff_eq, Bool.not_eq_true', List.isEmpty_iff]
  constructor
  · rintro ⟨method, child, ⟨⟨⟨⟨⟨isMethod, named⟩, onObject⟩, kept⟩, isPublic⟩, bare⟩, constness⟩
    exact ⟨method, child, isMethod, named, onObject, kept, isPublic, bare, constness⟩
  · rintro ⟨method, child, fits⟩
    exact ⟨method, child, ⟨⟨⟨⟨⟨fits.isMethod, fits.named⟩, fits.onObject⟩, fits.undeleted⟩,
      fits.isPublic⟩, fits.withoutArguments⟩, fits.constness⟩

theorem isSome_beginOf?_iff (tree : DeclTree) (id : DeclId) (direction : Direction)
    (isConst : Bool) :
    (tree.beginOf? id direction isConst).isSome ↔ tree.HasPair id direction isConst := by
  rw [HasPair, ← isSome_boundMethod?_iff, ← isSome_boundMethod?_iff, beginOf?, beginOfPair?]
  cases tree.boundMethod? id direction.first isConst <;>
    cases tree.boundMethod? id direction.last isConst <;> simp

end DeclTree

/-! ## What the pairs give -/

def Member.iteratorName? : Member → Option String
  | .iterator name _ _ _ => some name
  | _ => none

namespace IteratorBindings

/-- The Ruby names of the iterators. -/
def names (bindings : IteratorBindings) : List String :=
  bindings.members.filterMap Member.iteratorName?

/-- The second names of the iterators. -/
def secondNames (bindings : IteratorBindings) : List String :=
  bindings.aliases.map (·.newName)

/-- Whether iterators, second names and signatures are the ones of the pairs that a class has. -/
structure AreOf (bindings : IteratorBindings) (hasPair : Direction → Bool → Prop) : Prop where
  iterators : ∀ member ∈ bindings.members, member.iteratorName?.isSome
  distinct : bindings.names.Nodup
  among : ∀ name ∈ bindings.names,
    name ∈ ["each", "each_const", "each_reverse", "each_reverse_const"]
  bound : ∀ direction isConst, direction.name isConst ∈ bindings.names ↔ hasPair direction isConst
  /-- A second name stands for an iterator, and no iterator has it. -/
  aliases : ∀ second ∈ bindings.aliases,
    second.oldName ∈ bindings.names ∧ second.newName ∉ bindings.names
  callable : ∀ direction : Direction,
    direction.plainName ∈ bindings.names ∨ direction.plainName ∈ bindings.secondNames ↔
      ∃ isConst, hasPair direction isConst
  once : ∀ direction : Direction,
    ¬ (direction.plainName ∈ bindings.names ∧ direction.plainName ∈ bindings.secondNames)
  signed : ∀ (direction : Direction) isConst first last signature,
    .iterator (direction.name isConst) first last signature ∈ bindings.members →
      (signature.isSome ↔ ∀ isConst, direction.name isConst ∈ bindings.names)

end IteratorBindings

namespace Speller

variable (speller : Speller) (id : DeclId) (classType : String)

/-- The iterator that begins with a method. -/
def iteratorFrom (direction : Direction) (isConst : Bool) (start : DeclId) : Member :=
  .iterator (direction.name isConst) ("&" ++ classType ++ "::" ++ direction.first)
    ("&" ++ classType ++ "::" ++ direction.last)
    (if (speller.tree.beginOf? id direction false).isSome
        && (speller.tree.beginOf? id direction true).isSome then
      some (speller.methodSignature start classType)
    else
      none)

/-- The iterator for one of the ways to iterate a class, if there is a pair for it. -/
def iterator? (way : Direction × Bool) : Option Member :=
  (speller.tree.beginOf? id way.1 way.2).map (speller.iteratorFrom id classType way.1 way.2)

/-- The second name for iteration in a direction, which a class has that is iterated over constants
alone. -/
def alias? (direction : Direction) : Option Alias :=
  if (speller.tree.beginOf? id direction false).isNone
      && (speller.tree.beginOf? id direction true).isSome then
    some ⟨direction.plainName, direction.name true⟩
  else
    none

theorem members_iteratorBindings :
    (speller.iteratorBindings id classType).members =
      Direction.ways.filterMap (speller.iterator? id classType) := by
  have ofDirection (direction : Direction) :
      (speller.pairBindings id classType direction.first direction.last
        direction.plainName).members =
      [(direction, false), (direction, true)].filterMap (speller.iterator? id classType) := by
    rw [List.filterMap_eq_flatMap_toList, List.flatMap_cons, List.flatMap_singleton]
    rfl
  exact (congr (congrArg (· ++ ·) (ofDirection .forward)) (ofDirection .backward)).trans
    List.filterMap_append.symm

theorem aliases_iteratorBindings :
    (speller.iteratorBindings id classType).aliases =
      [Direction.forward, .backward].filterMap (speller.alias? id) := by
  have ofDirection (direction : Direction) :
      (speller.pairBindings id classType direction.first direction.last
        direction.plainName).aliases = (speller.alias? id direction).toList := by
    unfold pairBindings alias? DeclTree.beginOf?
    dsimp only
    split <;> rfl
  rw [List.filterMap_eq_flatMap_toList, List.flatMap_cons, List.flatMap_singleton]
  exact congr (congrArg (· ++ ·) (ofDirection .forward)) (ofDirection .backward)

/-- An iterator is bound for a begin method that has its end method. -/
theorem mem_members_iff {member : Member} :
    member ∈ (speller.iteratorBindings id classType).members ↔
      ∃ direction isConst start, speller.tree.beginOf? id direction isConst = some start ∧
        member = speller.iteratorFrom id classType direction isConst start := by
  rw [members_iteratorBindings, List.mem_filterMap]
  constructor
  · rintro ⟨⟨direction, isConst⟩, -, given⟩
    obtain ⟨start, begins, rfl⟩ := Option.map_eq_some_iff.mp given
    exact ⟨direction, isConst, start, begins, rfl⟩
  · rintro ⟨direction, isConst, start, begins, rfl⟩
    exact ⟨(direction, isConst), Direction.mem_ways direction isConst,
      Option.map_eq_some_iff.mpr ⟨start, begins, rfl⟩⟩

/-- A second name is bound for iteration over constants where there is none over variables. -/
theorem mem_aliases_iff {second : Alias} :
    second ∈ (speller.iteratorBindings id classType).aliases ↔
      ∃ direction : Direction, second = ⟨direction.name false, direction.name true⟩ ∧
        ¬ speller.tree.HasPair id direction false ∧ speller.tree.HasPair id direction true := by
  rw [aliases_iteratorBindings, List.mem_filterMap]
  have given (direction : Direction) :
      speller.alias? id direction = some second ↔
        second = ⟨direction.name false, direction.name true⟩ ∧
          ¬ speller.tree.HasPair id direction false ∧ speller.tree.HasPair id direction true := by
    rw [← DeclTree.isSome_beginOf?_iff, ← DeclTree.isSome_beginOf?_iff, alias?,
      Option.ite_none_right_eq_some, Bool.and_eq_true, ← Option.not_isSome, Bool.not_eq_true',
      Bool.not_eq_true, Option.some_inj, and_comm, eq_comm]
    rfl
  constructor
  · rintro ⟨direction, -, bound⟩
    exact ⟨direction, (given direction).mp bound⟩
  · rintro ⟨direction, bound⟩
    exact ⟨direction, by cases direction <;> decide, (given direction).mpr bound⟩

theorem mem_names_iff {name : String} :
    name ∈ (speller.iteratorBindings id classType).names ↔
      ∃ direction isConst, name = Direction.name direction isConst ∧
        speller.tree.HasPair id direction isConst := by
  rw [IteratorBindings.names, List.mem_filterMap]
  constructor
  · rintro ⟨member, bound, named⟩
    obtain ⟨direction, isConst, start, begins, rfl⟩ :=
      (speller.mem_members_iff id classType).mp bound
    exact ⟨direction, isConst, (Option.some.inj named).symm,
      (DeclTree.isSome_beginOf?_iff ..).mp (Option.isSome_of_mem begins)⟩
  · rintro ⟨direction, isConst, rfl, paired⟩
    obtain ⟨start, begins⟩ := Option.isSome_iff_exists.mp
      ((DeclTree.isSome_beginOf?_iff ..).mpr paired)
    exact ⟨_, (speller.mem_members_iff id classType).mpr ⟨direction, isConst, start, begins, rfl⟩,
      rfl⟩

theorem name_mem_names_iff (direction : Direction) (isConst : Bool) :
    direction.name isConst ∈ (speller.iteratorBindings id classType).names ↔
      speller.tree.HasPair id direction isConst := by
  rw [mem_names_iff]
  constructor
  · rintro ⟨other, isConst', same, paired⟩
    obtain ⟨rfl, rfl⟩ := Direction.name_inj same
    exact paired
  · exact fun paired => ⟨direction, isConst, rfl, paired⟩

theorem plainName_mem_secondNames_iff {direction : Direction} :
    direction.plainName ∈ (speller.iteratorBindings id classType).secondNames ↔
      ¬ speller.tree.HasPair id direction false ∧ speller.tree.HasPair id direction true := by
  rw [IteratorBindings.secondNames, List.mem_map]
  constructor
  · rintro ⟨second, bound, named⟩
    obtain ⟨other, rfl, pairs⟩ := (speller.mem_aliases_iff id classType).mp bound
    obtain ⟨rfl, -⟩ := Direction.name_inj (show other.name false = direction.name false from named)
    exact pairs
  · exact fun pairs => ⟨_, (speller.mem_aliases_iff id classType).mpr ⟨direction, rfl, pairs⟩, rfl⟩

theorem nodup_names : (speller.iteratorBindings id classType).names.Nodup := by
  rw [IteratorBindings.names, members_iteratorBindings, List.filterMap_filterMap]
  refine List.Nodup.filterMap (fun way other name given given' => ?_) (by decide)
  have named {way : Direction × Bool}
      (given : name ∈ (speller.iterator? id classType way).bind Member.iteratorName?) :
      way.1.name way.2 = name := by
    obtain ⟨member, made, named⟩ := Option.bind_eq_some_iff.mp given
    obtain ⟨start, -, rfl⟩ := Option.map_eq_some_iff.mp made
    exact Option.some.inj named
  obtain ⟨sameDirection, sameConst⟩ :=
    Direction.name_inj ((named given).trans (named given').symm)
  exact Prod.ext sameDirection sameConst

/-- In a direction in which there is some pair, the plain name is that of an iterator over variables
or a second name of the one over constants. -/
theorem plainName_iff (direction : Direction) :
    direction.plainName ∈ (speller.iteratorBindings id classType).names ∨
        direction.plainName ∈ (speller.iteratorBindings id classType).secondNames ↔
      ∃ isConst, speller.tree.HasPair id direction isConst := by
  rw [plainName_mem_secondNames_iff]
  refine (or_congr_left (speller.name_mem_names_iff id classType direction false)).trans ?_
  constructor
  · rintro (mutable | ⟨-, constant⟩)
    · exact ⟨false, mutable⟩
    · exact ⟨true, constant⟩
  · rintro ⟨isConst, paired⟩
    by_cases mutable : speller.tree.HasPair id direction false
    · exact .inl mutable
    · cases isConst with
      | false => exact absurd paired mutable
      | true => exact .inr ⟨mutable, paired⟩

theorem isSome_signature_iff {direction : Direction} {isConst : Bool} {first last : String}
    {signature : Option String}
    (bound : .iterator (direction.name isConst) first last signature ∈
      (speller.iteratorBindings id classType).members) :
    signature.isSome ↔
      ∀ isConst, direction.name isConst ∈ (speller.iteratorBindings id classType).names := by
  obtain ⟨other, isConst', start, -, same⟩ := (speller.mem_members_iff id classType).mp bound
  obtain ⟨named, -, -, rfl⟩ := Member.iterator.inj same
  obtain ⟨rfl, -⟩ := Direction.name_inj named
  simp only [name_mem_names_iff, Bool.forall_bool, ← DeclTree.isSome_beginOf?_iff]
  rw [← Bool.and_eq_true]
  split
  case isTrue both => exact iff_of_true rfl both
  case isFalse single => exact iff_of_false Bool.false_ne_true single

theorem iterators_are_of_pairs :
    (speller.iteratorBindings id classType).AreOf (speller.tree.HasPair id) where
  iterators member bound := by
    obtain ⟨direction, isConst, start, -, rfl⟩ := (speller.mem_members_iff id classType).mp bound
    rfl
  distinct := speller.nodup_names id classType
  among name bound := by
    obtain ⟨direction, isConst, rfl, -⟩ := (speller.mem_names_iff id classType).mp bound
    cases direction <;> cases isConst <;> decide
  bound := speller.name_mem_names_iff id classType
  aliases second bound := by
    obtain ⟨direction, rfl, unpaired, paired⟩ := (speller.mem_aliases_iff id classType).mp bound
    exact ⟨(speller.name_mem_names_iff id classType _ _).mpr paired,
      fun other => unpaired ((speller.name_mem_names_iff id classType _ _).mp other)⟩
  callable := speller.plainName_iff id classType
  once direction := by
    rintro ⟨member, second⟩
    exact ((speller.plainName_mem_secondNames_iff id classType).mp second).1
      ((speller.name_mem_names_iff id classType direction false).mp member)
  signed direction isConst first last signature := speller.isSome_signature_iff id classType

end Speller

end Bindery
