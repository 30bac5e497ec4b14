import Bindery.Proofs.Binding.Overloads

/-!
# Addresses without a signature

The address of a function or method that is bound without a signature is meant to be that of one
declaration.  It is, as far as overloads are counted: among the public functions and methods of the
unit's own file there is no other of the name.  An iterator takes addresses without a signature if
its class can be iterated either as a constant or as a variable, but not both.
-/

set_option autoImplicit false

namespace Bindery

namespace UnitContext

/-- Whether a declaration is the only one of its qualified name that counts. -/
def IsOnlyOverload (context : UnitContext) (id : DeclId) : Prop :=
  context.IsCounted id ∧ ∀ other, context.IsCounted other →
    context.tree.qualifiedName other = context.tree.qualifiedName id → other = id

theorem isOnlyOverload_of_not_overloaded {context : UnitContext} {id : DeclId}
    (counts : context.CountsOverloads) (counted : context.IsCounted id)
    (alone : context.overloaded id = false) : context.IsOnlyOverload id :=
  ⟨counted, fun _ counted' same =>
    (eq_of_not_overloaded counts counted counted' same.symm alone).symm⟩

/-- The names of the methods that make a pair of iterators. -/
def iteratorPairs : List (String × String) :=
  [("begin", "end"), ("rbegin", "rend")]

/-- Whether the members of a class take addresses without a signature only where there is no choice:
a method is the only overload that counts, and a pair of iterators is there in one constness. -/
structure TakesClearAddresses (context : UnitContext) (id : DeclId) (classType : String)
    (members : List Member) : Prop where
  methods : ∀ member ∈ members, ∀ callable ∈ member.callable?, callable.signature = none →
    ∃ child ∈ context.tree.children id, (context.tree.decl child).kind = .conversion ∨
      (context.tree.decl child).kind = .method ∧ context.IsOnlyOverload child ∧
        callable.cppName = "&" ++ classType ++ "::" ++ (context.tree.decl child).spelling
  iterators : ∀ name first last, .iterator name first last none ∈ members →
    ∃ pair ∈ iteratorPairs, first = "&" ++ classType ++ "::" ++ pair.1 ∧
      last = "&" ++ classType ++ "::" ++ pair.2 ∧
      ∃! isConst, (context.tree.beginOfPair? id pair.1 pair.2 isConst).isSome

section

variable {context : UnitContext} {id : DeclId} {classType : String}

/-- A callable that a child gives is one of a method or conversion, and has its target. -/
theorem GivesMember.target {child : DeclId} {member : Member}
    (gives : context.GivesMember classType child member) {callable : Callable}
    (given : callable ∈ member.callable?) :
    (context.tree.decl child).kind = .conversion ∨
      (context.tree.decl child).kind = .method ∧
        callable.target = context.methodTarget classType child := by
  cases gives with
  | method isMethod named has among =>
      refine .inr ⟨isMethod, ?_⟩
      have target : callable.target ∈ [context.methodTarget classType child] := by
        rw [← methodMembers_targets isMethod]
        exact List.mem_map.mpr ⟨callable, List.mem_filterMap.mpr ⟨member, among, given⟩, rfl⟩
      exact List.mem_singleton.mp target
  | conversion isConversion => exact .inl isConversion
  | enumValue _ among =>
      obtain ⟨value, -, rfl⟩ := List.mem_map.mp among
      cases given
  | constructor | field | constant | static => cases given

theorem not_givesMember_iterator {child : DeclId} {name first last : String}
    {signature : Option String} :
    ¬ context.GivesMember classType child (.iterator name first last signature) := by
  intro gives
  cases gives with
  | method isMethod named has among =>
      unfold methodMembers at among
      rcases List.mem_cons.mp among with own | setter
      · split at own <;> cases own
      · split at setter
        · obtain ⟨_, _, _, -, -, -, -, made⟩ :=
            indexSetter?_eq_some (Option.mem_toList.mp setter)
          cases made
        · cases setter
  | enumValue _ among =>
      obtain ⟨value, -, made⟩ := List.mem_map.mp among
      cases made

theorem isOnlyOverload_of_target (counts : context.CountsOverloads) {child : DeclId}
    (accepted : context.accepts child = true)
    (isMethod : (context.tree.decl child).kind = .method) {callable : Callable}
    (same : callable.target = context.methodTarget classType child)
    (unsigned : callable.signature = none) :
    context.IsOnlyOverload child ∧
      callable.cppName = "&" ++ classType ++ "::" ++ (context.tree.decl child).spelling := by
  unfold methodTarget callName calledWith at same
  rw [isMethod] at same
  obtain ⟨cppName, signature⟩ := Prod.mk.inj same
  refine ⟨isOnlyOverload_of_not_overloaded counts
    (isCounted_of_accepts accepted (.inl isMethod)) ?_, cppName⟩
  rw [← Bool.not_eq_true]
  intro shared
  rw [unsigned, explicitSignature?, shared] at signature
  cases isStatic : (context.tree.decl child).has .isStatic <;> simp [isStatic] at signature

theorem pair_of_unsigned_iterator {speller : Speller} {name start stop : String}
    (member : .iterator name start stop none ∈ (speller.iteratorBindings id classType).members) :
    ∃ pair ∈ iteratorPairs, start = "&" ++ classType ++ "::" ++ pair.1 ∧
      stop = "&" ++ classType ++ "::" ++ pair.2 ∧
      ∃! isConst, (speller.tree.beginOfPair? id pair.1 pair.2 isConst).isSome := by
  obtain ⟨direction, isConst, begun, begins, same⟩ :=
    (speller.mem_members_iff id classType).mp member
  obtain ⟨-, rfl, rfl, unsigned⟩ := Member.iterator.inj same
  have present : (speller.tree.beginOf? id direction isConst).isSome := Option.isSome_of_mem begins
  have listed : (direction.first, direction.last) ∈ iteratorPairs := by
    cases direction <;> decide
  refine ⟨_, listed, rfl, rfl, isConst, present, fun other alsoPresent => ?_⟩
  by_contra differs
  have both : ((speller.tree.beginOf? id direction false).isSome
      && (speller.tree.beginOf? id direction true).isSome) = true := by
    rw [Bool.and_eq_true]
    cases isConst with
    | false => exact ⟨present, Bool.eq_true_of_not_eq_false differs ▸ alsoPresent⟩
    | true => exact ⟨Bool.eq_false_of_not_eq_true differs ▸ alsoPresent, present⟩
  rw [if_pos both] at unsigned
  cases unsigned

theorem takesClearAddresses_of_members (counts : context.CountsOverloads) {members : List Member}
    (given : ∀ member ∈ members, context.IsMemberOf id classType member) :
    context.TakesClearAddresses id classType members := by
  constructor
  · intro member among callable isCallable unsigned
    rcases given member among with implicit | ⟨child, inside, gives, accepted, -⟩ | iterator
    · rw [(of_mem_implicitConstructor implicit).1] at isCallable
      cases isCallable
    · refine ⟨child, inside, (gives.target isCallable).imp_right ?_⟩
      rintro ⟨isMethod, same⟩
      obtain ⟨only, cppName⟩ := isOnlyOverload_of_target counts accepted isMethod same unsigned
      exact ⟨isMethod, only, cppName⟩
    · have target : callable.target ∈ Member.targets
          (context.speller.iteratorBindings id classType).members :=
        List.mem_map.mpr ⟨callable, List.mem_filterMap.mpr ⟨member, iterator, isCallable⟩, rfl⟩
      rw [iteratorBindings_targets] at target
      cases target
  · intro name first last among
    rcases given _ among with implicit | ⟨child, -, gives, -⟩ | iterator
    · cases (of_mem_implicitConstructor implicit).1
    · exact absurd gives not_givesMember_iterator
    · exact pair_of_unsigned_iterator iterator

end

end UnitContext

/-- A function, and a class with a method and a pair of iterators for variables. -/
def tankUnit : SourceUnit :=
  .ofSteps
    [.builtin "void", .builtin "int", .derived .pointer 1, .function .functionDecl 0 "fill" 0,
     .add 0 .classDecl "Tank", .function .method 2 "drain" 0, .function .method 2 "begin" 2,
     .function .method 2 "end" 2]

/-- A class with a public method and a private one of the same name. -/
def valveUnit : SourceUnit :=
  .ofSteps
    [.builtin "void", .builtin "int", .add 0 .classDecl "Valve", .function .method 1 "open" 0,
     .function .method 1 "open" 0, .param 3 "legs" 1, .setAccess 3 .isPrivate]

end Bindery
