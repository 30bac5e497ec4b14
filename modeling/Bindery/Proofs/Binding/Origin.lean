import Bindery.Binding.Generator
import Bindery.Proofs.Binding.Synthesis
import Bindery.Proofs.Binding.Reach
import Bindery.Proofs.Binding.Iterators

/-!
# Where fragments come from

Whatever stands in the bindings of a unit has come about by a rule: a declaration that the traversal
came to gave it, or an instantiation that was needed did.  `IsMade` lists the rules for fragments,
`GivesMember` those for the members of classes.  A unit is accountable if all that its state holds
has come about so.
-/

set_option autoImplicit false

namespace Bindery

/-! ## Scopes -/

/-- Whether the unit by itself has what a parent stands for: the namespace is open or the class is
bound. -/
def Parent.IsHome (unit : UnitState) : Parent → Prop
  | global => True
  | module_ identifier => ∃ qualified ∈ unit.namespaces,
      identifier = Name.moduleIdentifier qualified
  | class_ identifier => ∃ cppType, unit.identifierFor? cppType = some identifier

theorem Parent.IsHome.mono {before after : UnitState} {parent : Parent}
    (home : parent.IsHome before) (grows : before.GrowsTo after) : parent.IsHome after := by
  cases parent with
  | global => trivial
  | module_ identifier =>
      obtain ⟨qualified, isOpen, named⟩ := home
      exact ⟨qualified, grows.namespaces.subset isOpen, named⟩
  | class_ identifier =>
      obtain ⟨cppType, bound⟩ := home
      exact ⟨cppType, grows.identifierFor?_eq_some bound⟩

def DeclTree.IsInside (tree : DeclTree) : DeclId → DeclId → Prop :=
  Relation.TransGen fun inner outer => tree.semanticParent inner = some outer

namespace UnitContext

/-- What a declaration found out of turn may be attached to: something that the unit has, or a class
around it that an earlier unit has bound. -/
def IsScopeOf (context : UnitContext) (unit : UnitState) (inner : DeclId) (parent : Parent) :
    Prop :=
  parent.IsHome unit ∨
    ∃ outer identifier, context.tree.IsInside inner outer ∧
      (context.tree.decl outer).kind.isRecord ∧
      context.index.knownClass? (context.tree.qualifiedName outer) = some identifier ∧
      parent = .class_ identifier

theorem IsScopeOf.mono {context : UnitContext} {before after : UnitState} {inner : DeclId}
    {parent : Parent} (scope : context.IsScopeOf before inner parent)
    (grows : before.GrowsTo after) : context.IsScopeOf after inner parent := by
  rcases scope with home | earlier
  · exact .inl (home.mono grows)
  · exact .inr earlier

/-! ## Visited declarations -/

/-- Whether the traversal goes on with the children of a declaration. -/
def IsEntered (context : UnitContext) (id : DeclId) : Prop :=
  let decl := context.tree.decl id
  match decl.kind with
  | .namespaceDecl =>
      decl.anonymous = false ∧
        (decl.has .isInlineNamespace = true ∨ context.skipRule? id = none)
  | .linkageSpec => True
  | .classDecl | .structDecl =>
      decl.anonymous = false ∧ context.skipRule? id = none ∧ context.isExported id = true
  | _ => False

/-- The declarations that the traversal of a unit comes to. -/
inductive IsVisited (context : UnitContext) : DeclId → Prop
  | top {id : DeclId} (child : id ∈ context.tree.children DeclTree.root)
      (accepted : context.accepts id = true) : IsVisited context id
  | inside {outer id : DeclId} (visited : IsVisited context outer)
      (entered : context.IsEntered outer) (child : id ∈ context.tree.children outer)
      (accepted : context.accepts id = true) : IsVisited context id

/-! ## Members -/

/-- Whether a function has the given signature and no type in it mentions a skipped symbol. -/
def HasSignature (context : UnitContext) (function : DeclId) (signature : Signature) : Prop :=
  context.readSignature function = .ok signature ∧
    context.skippedMention? (signature.types ++
      (context.tree.decl function).resultType.toList.map context.speller.spell) = none

/-- The members that a declaration inside a class spelled `classType` gives. -/
inductive GivesMember (context : UnitContext) (classType : String) (id : DeclId) : Member → Prop
  | constructor {signature : Signature}
      (isConstructor : (context.tree.decl id).kind = .constructor)
      (has : context.HasSignature id signature) :
      GivesMember context classType id (.constructor signature.types signature.args)
  | method {name : String} {signature : Signature} {member : Member}
      (isMethod : (context.tree.decl id).kind = .method)
      (named : context.methodName? id = some name) (has : context.HasSignature id signature)
      (given : member ∈ context.methodMembers id classType name signature) :
      GivesMember context classType id member
  | conversion {result : TypeId} {signature : Signature}
      (isConversion : (context.tree.decl id).kind = .conversion)
      (converts : (context.tree.decl id).resultType = some result)
      (has : context.HasSignature id signature) :
      GivesMember context classType id
        (.method ⟨Name.conversion (context.speller.spell result),
          "&" ++ classType ++ "::operator " ++ context.speller.spell result, none,
          signature.args, false⟩)
  | field {type : TypeId} (isField : (context.tree.decl id).kind = .fieldDecl)
      (typed : (context.tree.decl id).type = some type)
      (unmentioned : context.skippedMention? [context.speller.spell type] = none) :
      GivesMember context classType id
        (.attribute
          (context.options.namer.attributeName (context.tree.decl id).spelling
            (context.tree.qualifiedName id))
          ("&" ++ classType ++ "::" ++ (context.tree.decl id).spelling)
          ((context.tree.type type).kind.isArray || (context.tree.type type).isConst))
  | constant (isVariable : (context.tree.decl id).kind = .varDecl) :
      GivesMember context classType id
        (.constant
          (context.options.namer.constantName (context.tree.decl id).spelling
            (context.tree.qualifiedName id))
          (classType ++ "::" ++ (context.tree.decl id).spelling))
  | static {isArray : Bool} (isVariable : (context.tree.decl id).kind = .varDecl) :
      GivesMember context classType id
        (.singletonAttribute
          (context.options.namer.attributeName (context.tree.decl id).spelling
            (context.tree.qualifiedName id))
          ("&" ++ (classType ++ "::" ++ (context.tree.decl id).spelling)) isArray)
  | enumValue {member : Member} (isEnum : (context.tree.decl id).kind = .enumDecl)
      (given : member ∈ context.enumConstants id classType) :
      GivesMember context classType id member

/-- Whether a rule that skips a declaration keeps its members out of its class.  Constructors and
the values of enums without a name come in all the same. -/
def IsGuarded (decl : Decl) : Prop :=
  decl.kind ≠ .constructor ∧ decl.kind ≠ .enumDecl

/-- Whether a child of a class takes part and gives a member that its rules let in. -/
def Contributes (context : UnitContext) (classType : String) (child : DeclId) (member : Member) :
    Prop :=
  context.GivesMember classType child member ∧ context.accepts child = true ∧
    (IsGuarded (context.tree.decl child) → context.skipRule? child = none)

/-- Whether a member of a class or class template is its implicit constructor, is one of its
iterators or is given by one of its children. -/
def IsMemberOf (context : UnitContext) (id : DeclId) (classType : String) (member : Member) :
    Prop :=
  member ∈ context.implicitConstructor id ∨
    (∃ child ∈ context.tree.children id, context.Contributes classType child member) ∨
    member ∈ (context.speller.iteratorBindings id classType).members

theorem of_mem_implicitConstructor {context : UnitContext} {id : DeclId} {member : Member}
    (given : member ∈ context.implicitConstructor id) :
    member = .constructor [] [] ∧
      ∀ child ∈ context.tree.children id, (context.tree.decl child).kind ≠ .constructor := by
  unfold implicitConstructor at given
  dsimp only at given
  split at given
  case isTrue => cases given
  case isFalse declared =>
    refine ⟨List.mem_singleton.mp given, fun child inside same => declared ?_⟩
    rw [Bool.or_eq_true]
    exact .inl (List.any_eq_true.mpr ⟨child, inside, beq_iff_eq.mpr same⟩)

/-- An iterator goes from a begin method of its class to the end method that belongs to it. -/
theorem exists_pair_of_mem_iterators {context : UnitContext} {id : DeclId} {owner : String}
    {member : Member} (given : member ∈ (context.speller.iteratorBindings id owner).members) :
    ∃ first last name signature isConst start stop,
      member = .iterator name ("&" ++ owner ++ "::" ++ first) ("&" ++ owner ++ "::" ++ last)
        signature ∧
      context.tree.boundMethod? id first isConst = some start ∧
      context.tree.boundMethod? id last isConst = some stop := by
  obtain ⟨direction, isConst, start, begins, rfl⟩ :=
    (context.speller.mem_members_iff id owner).mp given
  obtain ⟨begun, isFirst, rest⟩ := Option.bind_eq_some_iff.mp begins
  obtain ⟨stop, isLast, -⟩ := Option.bind_eq_some_iff.mp rest
  exact ⟨direction.first, direction.last, _, _, isConst, begun, stop, rfl, isFirst, isLast⟩

/-- Whether an opaque class is a nested class that is declared and nowhere defined. -/
def IsOpaqueIn (context : UnitContext) (id : DeclId) (inner : OpaqueClass) : Prop :=
  ∃ child ∈ context.tree.children id, (context.tree.decl child).kind.isRecord ∧
    context.skipRule? child = none ∧
    inner =
      ⟨Name.classIdentifier (context.tree.qualifiedName child),
        context.options.namer.className (context.tree.decl child).spelling
          (context.tree.qualifiedName child),
        context.tree.qualifiedName child⟩

/-! ## Fragments -/

def moduleOf (context : UnitContext) (id : DeclId) (parent : Parent) : Fragment :=
  .module_ (context.moduleIdentifier id)
    (context.options.namer.moduleName (context.tree.decl id).spelling
      (context.tree.qualifiedName id)) parent

/-- The scope in front of the values of an enum without a name. -/
def enumScope (context : UnitContext) (id : DeclId) : String :=
  ((context.tree.semanticParent id).map context.tree.qualifiedName).getD ""

/-- How fragments come about in a unit. -/
inductive IsMade (context : UnitContext) (unit : UnitState) : Fragment → Prop
  /-- The traversal enters a namespace. -/
  | module_ {id : DeclId} {parent : Parent} (visited : context.IsVisited id)
      (isNamespace : (context.tree.decl id).kind = .namespaceDecl)
      (kept : context.skipRule? id = none) (home : parent.IsHome unit) :
      IsMade context unit (context.moduleOf id parent)
  /-- An instantiation is needed whose template is inside a namespace. -/
  | enclosing {id template : DeclId} {parent : Parent} {cppType : String} {args : List String}
      (needed : context.Spells template args cppType)
      (inside : context.tree.IsInside template id)
      (isNamespace : (context.tree.decl id).kind = .namespaceDecl)
      (scope : context.IsScopeOf unit template parent) :
      IsMade context unit (context.moduleOf id parent)
  | class_ {id : DeclId} {base : Option String} {parent : Parent}
      {opaqueClasses : List OpaqueClass} {members : List Member} {aliases : List Alias}
      (visited : context.IsVisited id) (entered : context.IsEntered id)
      (record : (context.tree.decl id).kind.isRecord) (home : parent.IsHome unit)
      (inner : ∀ inner ∈ opaqueClasses, context.IsOpaqueIn id inner)
      (given : ∀ member ∈ members,
        context.IsMemberOf id (context.tree.qualifiedName id) member) :
      IsMade context unit
        (.class_ ⟨Name.classIdentifier (context.tree.qualifiedName id),
          context.options.namer.className (context.tree.decl id).spelling
            (context.tree.qualifiedName id),
          context.tree.qualifiedName id, base, parent, opaqueClasses, members, aliases⟩)
  | enum {id : DeclId} {parent : Parent} (visited : context.IsVisited id)
      (isEnum : (context.tree.decl id).kind = .enumDecl)
      (kept : context.skipRule? id = none) (home : parent.IsHome unit) :
      IsMade context unit
        (.enum (Name.classIdentifier (context.tree.qualifiedName id))
          (context.options.namer.className (context.tree.decl id).spelling
            (context.tree.qualifiedName id))
          (context.tree.qualifiedName id) parent
          (context.enumValues id (context.tree.qualifiedName id)))
  /-- An enum without a name has a value. -/
  | enumValue {id : DeclId} {parent : Parent} {value : String × String}
      (visited : context.IsVisited id)
      (isEnum : (context.tree.decl id).kind = .enumDecl)
      (member : value ∈ context.enumValues id (context.enumScope id))
      (home : parent.IsHome unit) :
      IsMade context unit (.constant parent value.1 value.2)
  /-- A typedef names an instantiation. -/
  | named {id template : DeclId} {cppType : String} {args : List String}
      {base : Option String} {parent : Parent} {builder : Option BuilderCall}
      (visited : context.IsVisited id)
      (isTypedef : (context.tree.decl id).kind.isTypedef)
      (names : context.namedInstantiation? id = some (template, cppType, args))
      (kept : context.skipRule? id = none) (templateKept : context.skipRule? template = none)
      (home : parent.IsHome unit) :
      IsMade context unit
        (.instantiation (Name.classIdentifier (context.tree.qualifiedName id))
          (context.options.namer.className (context.tree.decl id).spelling
            (context.tree.qualifiedName id)) cppType base parent builder)
  /-- An instantiation is needed that no typedef names and no earlier unit has bound. -/
  | synthesized {template : DeclId} {cppType : String} {args : List String}
      {base : Option String} {parent : Parent} {builder : Option BuilderCall}
      (needed : context.Spells template args cppType)
      (admitted : context.admits template cppType args = true)
      (unbound : context.isBound .empty cppType = false)
      (scope : context.IsScopeOf unit template parent) :
      IsMade context unit
        (.instantiation (context.synthesizedIdentifier template args)
          (context.synthesizedName template args) cppType base parent builder)
  | function {id : DeclId} {parent : Parent} {signature : Signature}
      (visited : context.IsVisited id)
      (isFunction : (context.tree.decl id).kind = .functionDecl)
      (kept : context.skipRule? id = none) (exported : context.isExported id = true)
      (has : context.HasSignature id signature) (home : parent.IsHome unit) :
      IsMade context unit
        (.function parent
          ⟨context.options.namer.methodName (context.methodShape id)
              (context.tree.qualifiedName id),
            "&" ++ context.tree.qualifiedName id,
            if context.overloaded id then some (context.speller.functionSignature id) else none,
            signature.args, context.returnsBuffer id⟩)
  | constant {id : DeclId} {parent : Parent} (visited : context.IsVisited id)
      (isVariable : (context.tree.decl id).kind = .varDecl)
      (kept : context.skipRule? id = none) (home : parent.IsHome unit) :
      IsMade context unit
        (.constant parent
          (context.options.namer.constantName (context.tree.decl id).spelling
            (context.tree.qualifiedName id)) (context.tree.qualifiedName id))
  | variable_ {id : DeclId} {parent : Parent} {isArray : Bool} (visited : context.IsVisited id)
      (isVariable : (context.tree.decl id).kind = .varDecl)
      (kept : context.skipRule? id = none) (home : parent.IsHome unit) :
      IsMade context unit
        (.variable_ parent
          (context.options.namer.attributeName (context.tree.decl id).spelling
            (context.tree.qualifiedName id)) ("&" ++ context.tree.qualifiedName id) isArray)

def IsBuilderOf (context : UnitContext) (id : DeclId) (builder : Builder) : Prop :=
  context.IsVisited id ∧ (context.tree.decl id).kind = .classTemplate ∧
    context.skipRule? id = none ∧ context.isExported id = true ∧
    builder.name = Name.builder (context.tree.qualifiedName id) ∧
    builder.cppType = context.tree.qualifiedDisplayName id ∧
    ∀ member ∈ builder.members,
      context.IsMemberOf id (context.tree.qualifiedDisplayName id) member

def IsOperatorOf (context : UnitContext) (id : DeclId) (operator : FreeOperator) : Prop :=
  context.IsVisited id ∧ (context.tree.decl id).kind = .functionDecl ∧
    context.skipRule? id = none ∧ context.isExported id = true ∧
    context.speller.freeOperator? id = some operator

def AreMade (context : UnitContext) (unit : UnitState) (fragments : List Fragment) : Prop :=
  ∀ fragment ∈ fragments, context.IsMade unit fragment

section

variable {context : UnitContext} {before after : UnitState}

theorem IsMade.mono {fragment : Fragment} (made : context.IsMade before fragment)
    (grows : before.GrowsTo after) : context.IsMade after fragment := by
  cases made with
  | module_ visited isNamespace kept home =>
      exact .module_ visited isNamespace kept (home.mono grows)
  | enclosing needed inside isNamespace scope =>
      exact .enclosing needed inside isNamespace (scope.mono grows)
  | class_ visited entered record home inner given =>
      exact .class_ visited entered record (home.mono grows) inner given
  | enum visited isEnum kept home => exact .enum visited isEnum kept (home.mono grows)
  | enumValue visited isEnum member home =>
      exact .enumValue visited isEnum member (home.mono grows)
  | named visited isTypedef names kept templateKept home =>
      exact .named visited isTypedef names kept templateKept (home.mono grows)
  | synthesized needed admitted unbound scope =>
      exact .synthesized needed admitted unbound (scope.mono grows)
  | function visited isFunction kept exported has home =>
      exact .function visited isFunction kept exported has (home.mono grows)
  | constant visited isVariable kept home =>
      exact .constant visited isVariable kept (home.mono grows)
  | variable_ visited isVariable kept home =>
      exact .variable_ visited isVariable kept (home.mono grows)

theorem areMade_append {unit : UnitState} {left right : List Fragment}
    (madeLeft : context.AreMade unit left) (madeRight : context.AreMade unit right) :
    context.AreMade unit (left ++ right) :=
  List.forall_mem_append.mpr ⟨madeLeft, madeRight⟩

theorem areMade_singleton {unit : UnitState} {fragment : Fragment}
    (made : context.IsMade unit fragment) : context.AreMade unit [fragment] :=
  List.forall_mem_singleton.mpr made

theorem AreMade.mono {fragments : List Fragment} (made : context.AreMade before fragments)
    (grows : before.GrowsTo after) : context.AreMade after fragments :=
  fun fragment member => (made fragment member).mono grows

end

/-- Everything in the state of a unit has come about by a rule. -/
structure Accountable (context : UnitContext) (unit : UnitState) : Prop where
  namespaces : ∀ qualified ∈ unit.namespaces, ∃ id,
    (context.tree.decl id).kind = .namespaceDecl ∧ context.tree.qualifiedName id = qualified
  pending : context.AreMade unit unit.pending
  builders : ∀ builder ∈ unit.builders, ∃ id, context.IsBuilderOf id builder
  operators : ∀ entry ∈ unit.operators.pending, ∀ lambda ∈ entry.2, ∃ id,
    context.IsOperatorOf id ⟨entry.1, lambda⟩

end UnitContext

end Bindery
