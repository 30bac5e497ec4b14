import Bindery.Proofs.Binding.BuilderCalls
import Bindery.Proofs.Binding.Demand
import Bindery.Proofs.Spelling.Names
import Bindery.Proofs.Text.InstanceName

/-!
# Arguments of instantiations

An instantiation is bound with the arguments that are read from its spelling: the builder of its
template is called with them, and its base is the one that the base clause gives for them.  They are
read from the first argument list, which belongs to an outer template if the template is nested in
an instantiation.
-/

set_option autoImplicit false

namespace Bindery

/-! ## Names in spellings -/

namespace Speller

/-- A type names an instantiation of a class template, by a path with the arguments of the template
at its end. -/
structure NamesInstantiation (speller : Speller) (type : TypeId) (template : DeclId)
    (written : Text.InstanceName) : Prop where
  byName : (speller.tree.type type).kind.isByName = true
  behind : ((speller.tree.typeDeclaration type).bind fun id =>
    (speller.tree.decl id).specializedTemplate) = some template
  spelling : speller.spellNamed type = written.text
  readable : written.IsReadable

instance (speller : Speller) (type : TypeId) (template : DeclId) (written : Text.InstanceName) :
    Decidable (speller.NamesInstantiation type template written) :=
  decidable_of_iff
    ((speller.tree.type type).kind.isByName = true ∧
      ((speller.tree.typeDeclaration type).bind fun id =>
        (speller.tree.decl id).specializedTemplate) = some template ∧
      speller.spellNamed type = written.text ∧ written.IsReadable)
    ⟨fun ⟨byName, behind, spelling, readable⟩ => ⟨byName, behind, spelling, readable⟩,
      fun names => ⟨names.byName, names.behind, names.spelling, names.readable⟩⟩

namespace NamesInstantiation

variable {speller : Speller} {type : TypeId} {template : DeclId} {written : Text.InstanceName}

theorem withConst_text (names : speller.NamesInstantiation type template written)
    (isConst : Bool) :
    Spelling.withConst isConst written.text =
      (if isConst then "const " else "") ++ written.text := by
  rw [Spelling.withConst, names.readable.bare]
  cases isConst
  · exact String.empty_append.symm
  · rfl

theorem withConst_eq_iff (names : speller.NamesInstantiation type template written)
    {isConst : Bool} :
    Spelling.withConst isConst written.text = written.text ↔ isConst = false := by
  rw [names.withConst_text]
  cases isConst with
  | true =>
      refine ⟨fun same => ?_, nofun⟩
      have size := congrArg String.length same
      have more : "const ".length = 6 := rfl
      rw [if_pos rfl, String.length_append] at size
      omega
  | false => exact ⟨fun _ => rfl, fun _ => String.empty_append⟩

theorem spell_eq (names : speller.NamesInstantiation type template written) :
    speller.spell type = Spelling.withConst (speller.tree.type type).isConst written.text := by
  rw [spell, spellTo_of_isByName speller _ names.byName, names.spelling]

theorem readArgs_spell (names : speller.NamesInstantiation type template written) :
    Text.readArgs (speller.spell type) = some written.outermostArgs := by
  rw [names.spell_eq, names.withConst_text]
  refine names.readable.readArgs_append ?_
  cases (speller.tree.type type).isConst <;> decide

/-- A `const` in front does not count where the arguments are read from a parameter or result. -/
theorem dropCopies_spell (names : speller.NamesInstantiation type template written) :
    Text.dropCopies "const " (speller.spell type) = written.text := by
  rw [names.spell_eq, names.withConst_text]
  cases (speller.tree.type type).isConst with
  | true =>
      exact (Text.dropCopies_append (by decide) written.text).trans
        (Text.dropCopies_of_plain names.readable.bare)
  | false =>
      rw [if_neg Bool.false_ne_true, String.empty_append]
      exact Text.dropCopies_of_plain names.readable.bare

end NamesInstantiation

end Speller

namespace UnitContext

variable {context : UnitContext} {type : TypeId} {template : DeclId} {written : Text.InstanceName}

theorem namedInstantiation?_eq (names : context.speller.NamesInstantiation type template written)
    {id : DeclId} (isType : (context.tree.decl id).underlyingType = some type)
    (user : context.tree.isStd template = false) :
    context.namedInstantiation? id =
      some (template, Spelling.withConst (context.tree.type type).isConst written.text,
        written.outermostArgs) := by
  obtain ⟨instance_, declared, specialized⟩ := Option.bind_eq_some_iff.mp names.behind
  obtain ⟨⟨base, args, rest⟩, split, read⟩ := Option.map_eq_some_iff.mp names.readArgs_spell
  have spelled : context.speller.spell type =
      Spelling.withConst (context.tree.type type).isConst written.text := names.spell_eq
  change context.tree.typeDeclaration type = some instance_ at declared
  change (context.tree.decl instance_).specializedTemplate = some template at specialized
  simp only [namedInstantiation?, isType, declared, specialized, user, split, Option.bind_eq_bind,
    Option.bind_some, Bool.false_eq_true, if_false]
  rw [spelled, ← read]

theorem unnamedInstantiation?_eq {value : TypeId}
    (names : context.speller.NamesInstantiation (passedType context.tree value) template written)
    (unnamed : context.speller.registries.typedefFor? (Text.dropCopies "const "
      (context.tree.canonicalSpelling (passedType context.tree value))) = none) :
    context.unnamedInstantiation? value =
      some (template, written.text, written.outermostArgs) := by
  obtain ⟨instance_, declared, specialized⟩ := Option.bind_eq_some_iff.mp names.behind
  have plain : '<' ∉ "".toList := by decide
  have whole := names.readable.readArgs_append plain
  rw [String.empty_append] at whole
  obtain ⟨⟨base, args, rest⟩, split, read⟩ := Option.map_eq_some_iff.mp whole
  change context.tree.typeDeclaration (passedType context.tree value) = some instance_ at declared
  change (context.tree.decl instance_).specializedTemplate = some template at specialized
  simp only [unnamedInstantiation?, declared, specialized, unnamed, names.dropCopies_spell, split,
    Option.bind_eq_bind, Option.bind_some, Option.isSome_none, Bool.false_eq_true, if_false]
  rw [← read]

/-! ## What is made with arguments -/

/-- The fragment of an instantiation made with some arguments: a builder is called with them, and
the base is the one that the base clause of the template gives for them. -/
inductive IsMadeWith (context : UnitContext) (template : DeclId) (cppType : String)
    (args : List String) : Fragment → Prop
  | instantiation {identifier name : String} {base : Option String} {parent : Parent}
      {builder : Option BuilderCall} (calls : ∀ call ∈ builder, call.templateArgs = args)
      (derives : ∀ spelling ∈ base, ∃ found,
        context.speller.instantiateBase? template args = some found ∧ found.cppType = spelling) :
      IsMadeWith context template cppType args
        (.instantiation identifier name cppType base parent builder)

theorem builderCall_answers (template : DeclId) (args : List String) :
    (context.builderCall template args).Answers fun builder =>
      ∀ call ∈ builder, call.templateArgs = args := by
  have calls (name : String) : ∀ call ∈ some (⟨name, args⟩ : BuilderCall),
      call.templateArgs = args := by
    intro call member
    cases Option.some.inj member
    rfl
  unfold builderCall
  refine .andThen fun state => ?_
  split
  · exact .pure (calls _)
  · split
    · exact .andThen fun _ => .pure (calls _)
    · exact .pure nofun

theorem requireInstantiationTo_same (depth : Nat) (template : DeclId) (cppType : String)
    (args : List String) :
    (context.requireInstantiationTo depth template cppType args).Answers fun bound =>
      ∀ spelling ∈ bound, cppType = spelling := by
  have same : ∀ spelling ∈ some cppType, cppType = spelling := fun _ => Option.some.inj
  intro before bound after run
  obtain ⟨_, -, ⟨rfl, -⟩ | ⟨rfl, -⟩ | ⟨rfl, -⟩⟩ := run_requireInstantiationTo run
  · exact nofun
  · exact same
  · exact same

theorem baseFor_same (depth : Nat) (base? : Option BaseClass) :
    (context.baseFor (context.requireInstantiationTo depth) base?).Answers fun declared =>
      ∀ spelling ∈ declared, ∃ base, base? = some base ∧ base.cppType = spelling := by
  cases base? with
  | none => exact .pure nofun
  | some base =>
      intro before declared after run spelling member
      refine ⟨base, rfl, ?_⟩
      cases base with
      | instantiation template cppType args =>
          exact requireInstantiationTo_same depth template cppType args _ _ _ run spelling member
      | plain cppType decl =>
          have bound := (run_bindPlain (context.requireInstantiationTo depth) run).2
          exact (bound spelling member).symm

/-- What a typedef is bound with is what is read from the type that it names. -/
theorem visitTypedef_made (id : DeclId) (parent : Parent) :
    (context.visitTypedef id parent).Answers fun produced =>
      ∀ fragment ∈ produced, ∃ template cppType args,
        context.namedInstantiation? id = some (template, cppType, args) ∧
          context.IsMadeWith template cppType args fragment := by
  unfold visitTypedef
  split
  · exact .pure (List.forall_mem_nil _)
  · refine .andThen fun skipped => ?_
    split
    · exact .pure (List.forall_mem_nil _)
    · split
      case h_1 => exact .pure (List.forall_mem_nil _)
      case h_2 template cppType args named =>
        refine .andThen fun templateSkipped => ?_
        split
        · exact .pure (List.forall_mem_nil _)
        · refine .andThen fun mentions => ?_
          split
          · exact .pure (List.forall_mem_nil _)
          · refine .andThen fun state => ?_
            split
            · exact .pure (List.forall_mem_nil _)
            · refine .andThen fun bound => ?_
              split
              · rw [declaredBase_eq_baseFor]
                refine .bind (baseFor_same _ _) fun base derives => ?_
                refine .bind (builderCall_answers template args) fun builder calls => .pure ?_
                exact List.forall_mem_singleton.mpr
                  ⟨template, cppType, args, named, .instantiation calls derives⟩
              · exact .pure (List.forall_mem_nil _)

end UnitContext

/-! ## What comes to wait -/

/-- More fragments wait than before, and all of them are as described. -/
def Progress.Queues (before after : Progress) (holds : Fragment → Prop) : Prop :=
  ∃ more, after.unit.pending = before.unit.pending ++ more ∧ ∀ fragment ∈ more, holds fragment

namespace Progress.Queues

variable {first second third : Progress} {holds : Fragment → Prop}

theorem of_eq (same : second.unit.pending = first.unit.pending) : first.Queues second holds :=
  ⟨[], by rw [same, List.append_nil], nofun⟩

theorem trans (left : first.Queues second holds) (right : second.Queues third holds) :
    first.Queues third holds := by
  obtain ⟨more, queue, known⟩ := left
  obtain ⟨later, last, found⟩ := right
  refine ⟨more ++ later, ?_, List.forall_mem_append.mpr ⟨known, found⟩⟩
  rw [last, queue, List.append_assoc]

theorem mono {other : Fragment → Prop} (queues : first.Queues second holds)
    (weaker : ∀ fragment, holds fragment → other fragment) : first.Queues second other := by
  obtain ⟨more, queue, known⟩ := queues
  exact ⟨more, queue, fun fragment member => weaker fragment (known fragment member)⟩

end Progress.Queues

namespace Gen

/-- Whatever a computation lets wait is as described. -/
def Waits {α : Type} (step : Gen α) (holds : Fragment → Prop) : Prop :=
  ∀ before value after, step.run before = some (value, after) → before.Queues after holds

namespace Waits

variable {α β : Type} {holds : Fragment → Prop}

theorem of_isQuiet {step : Gen α} (quiet : step.IsQuiet) : step.Waits holds :=
  fun _ _ _ run => .of_eq (quiet _ _ _ run).pending

theorem pure (value : α) : (Pure.pure value : Gen α).Waits holds :=
  of_isQuiet (.pure value)

theorem bindAnswer {first : Gen α} {rest : α → Gen β} {middle : α → Prop}
    (waitsFirst : first.Waits holds) (answers : first.Answers middle)
    (waitsRest : ∀ value, middle value → (rest value).Waits holds) :
    (first >>= rest).Waits holds := by
  intro before result after run
  obtain ⟨value, between, firstRun, restRun⟩ := run_bind_eq_some run
  exact (waitsFirst _ _ _ firstRun).trans
    (waitsRest value (answers _ _ _ firstRun) _ _ _ restRun)

theorem bind {first : Gen α} {rest : α → Gen β} (waitsFirst : first.Waits holds)
    (waitsRest : ∀ value, (rest value).Waits holds) : (first >>= rest).Waits holds :=
  waitsFirst.bindAnswer (.anything first) fun value _ => waitsRest value

theorem mono {step : Gen α} {other : Fragment → Prop} (waits : step.Waits holds)
    (weaker : ∀ fragment, holds fragment → other fragment) : step.Waits other :=
  fun _ _ _ run => (waits _ _ _ run).mono weaker

theorem register (identifier cppType : String) : (Gen.register identifier cppType).Waits holds := by
  intro before value after run
  obtain ⟨unit, -, registered, rfl⟩ | ⟨-, -, rfl⟩ := run_register_eq_some run
  · obtain ⟨-, -, rfl⟩ := UnitState.register?_eq_some registered
    exact .of_eq rfl
  · exact .of_eq rfl

theorem enqueue {fragment : Fragment} (known : holds fragment) :
    (Gen.enqueue fragment).Waits holds := by
  intro before value after run
  cases run
  exact ⟨[fragment], rfl, List.forall_mem_singleton.mpr known⟩

end Waits

end Gen

namespace UnitContext

variable {context : UnitContext} {type : TypeId} {template : DeclId} {written : Text.InstanceName}

theorem openNamespace_waits (id : DeclId) (outer : Parent) (holds : Fragment → Prop) :
    (context.openNamespace id outer).Waits holds := by
  intro before opened after run
  obtain ⟨-, -, rfl⟩ | ⟨-, -, rfl⟩ := run_openNamespace run
  · exact .of_eq rfl
  · exact .of_eq rfl

theorem openNamespace_untyped (id : DeclId) (outer : Parent) :
    (context.openNamespace id outer).Answers fun opened =>
      ∀ fragment ∈ opened, fragment.cppType? = none := by
  intro before opened after run
  obtain ⟨-, rfl, -⟩ | ⟨-, ⟨name, rfl⟩, -⟩ := run_openNamespace run
  · exact nofun
  · intro fragment member
    cases Option.some.inj member
    rfl

/-- Only modules come to wait for the sake of a scope. -/
theorem ensureScopeTo_waits (depth : Nat) (scope : Option DeclId) :
    (context.ensureScopeTo depth scope).Waits fun fragment => fragment.cppType? = none := by
  induction depth generalizing scope with
  | zero =>
      cases scope with
      | none => exact .pure _
      | some id => exact fun _ _ _ run => nomatch run
  | succ depth ih =>
      cases scope with
      | none => exact .pure _
      | some id =>
          unfold ensureScopeTo
          dsimp only
          split
          · exact .pure _
          · refine .bind (ih _) fun outer => ?_
            split
            · refine .bindAnswer (openNamespace_waits id outer _) (openNamespace_untyped id outer)
                fun opened untyped => ?_
              split
              case h_1 fragment _ => exact .bind (.enqueue (untyped _ rfl)) fun _ => .pure _
              case h_2 => exact .pure _
            · exact .pure outer
          iterate 3
            · refine .bind (.of_isQuiet .unit) fun state => ?_
              split
              · exact .pure _
              · exact ih _
          · exact ih _

theorem IsMadeWith.cppType?_eq {cppType : String} {args : List String} {fragment : Fragment}
    (made : context.IsMadeWith template cppType args fragment) :
    fragment.cppType? = some cppType := by
  cases made
  rfl

theorem synthesize_waits {cppType : String} {args : List String} {base : Option String}
    (derives : ∀ spelling ∈ base, ∃ found,
      context.speller.instantiateBase? template args = some found ∧ found.cppType = spelling) :
    (context.synthesize template cppType args base).Waits fun fragment =>
      fragment.cppType? = none ∨ context.IsMadeWith template cppType args fragment := by
  unfold synthesize
  refine .bind ((ensureScopeTo_waits _ _).mono fun _ => .inl) fun parent => ?_
  refine .bind (.register _ _) fun bound => ?_
  split
  · refine .bindAnswer (.of_isQuiet (context.builderCall_isQuiet template args))
      (builderCall_answers template args) fun builder calls => ?_
    exact .bind (.of_isQuiet (.report _)) fun _ => .enqueue (.inr (.instantiation calls derives))
  · exact .pure _

theorem run_baseFor_queues {require : DeclId → String → List String → Gen (Option String)}
    {holds : Fragment → Prop} {base? : Option BaseClass} {declared : Option String}
    {before after : Progress}
    (requires : ∀ {template cppType args bound}, (require template cppType args).run before =
      some (bound, after) → before.Queues after holds)
    (run : (context.baseFor require base?).run before = some (declared, after)) :
    before.Queues after holds := by
  cases base? with
  | none =>
      obtain ⟨-, rfl⟩ := Gen.run_pure_eq_some run
      exact .of_eq rfl
  | some base =>
      cases base with
      | instantiation => exact requires run
      | plain => exact .of_eq (run_bindPlain require run).1.pending

theorem growsTo_markGenerated (unit : UnitState) (cppType : String) :
    unit.GrowsTo (unit.markGenerated cppType) :=
  ⟨List.prefix_refl _, List.prefix_refl _, List.suffix_cons _ _⟩

/-- For a type that counts as bound no instantiation comes to wait. -/
theorem run_requireInstantiationTo_of_isBound {known : String} {depth : Nat} {cppType : String}
    {args : List String} {bound : Option String} {before after : Progress}
    (isBound : context.isBound before.unit known = true)
    (run : (context.requireInstantiationTo depth template cppType args).run before =
      some (bound, after)) :
    before.Queues after fun fragment => fragment.cppType? ≠ some known := by
  induction depth using Nat.strongRecOn generalizing template cppType args bound before after
  case ind depth ih =>
  obtain ⟨asked, quiet, ⟨rfl, rfl⟩ | ⟨rfl, rfl, -⟩ |
    ⟨rfl, unbound, -, less, base, between, rfl, baseRun, madeRun⟩⟩ := run_requireInstantiationTo run
  · exact .of_eq quiet.pending
  · exact .of_eq quiet.pending
  · have still := isBound_mono isBound quiet.growsTo
    have differs : cppType ≠ known := by
      rintro rfl
      exact Bool.false_ne_true (unbound.symm.trans still)
    have marked := isBound_mono still (growsTo_markGenerated asked.unit cppType)
    have inner := run_baseFor_queues (ih less (Nat.lt_succ_self less) marked) baseRun
    have outer := synthesize_waits (baseFor_same less _ _ _ _ baseRun) _ _ _ madeRun
    have own : between.Queues after fun fragment => fragment.cppType? ≠ some known := by
      refine outer.mono fun fragment made => ?_
      rcases made with untyped | made
      · simp [untyped]
      · simpa [made.cppType?_eq] using differs
    have asks : before.Queues asked fun fragment => fragment.cppType? ≠ some known :=
      .of_eq quiet.pending
    exact asks.trans (inner.trans own)

/-- What comes to wait for a type that is required is made with the given arguments. -/
theorem requireInstantiationTo_waits (depth : Nat) (template : DeclId) (cppType : String)
    (args : List String) :
    (context.requireInstantiationTo depth template cppType args).Waits fun fragment =>
      fragment.cppType? = some cppType → context.IsMadeWith template cppType args fragment := by
  intro before bound after run
  obtain ⟨asked, quiet, ⟨rfl, rfl⟩ | ⟨rfl, rfl, -⟩ |
    ⟨rfl, unbound, -, less, base, between, rfl, baseRun, madeRun⟩⟩ := run_requireInstantiationTo run
  · exact .of_eq quiet.pending
  · exact .of_eq quiet.pending
  · -- The type is marked before its base is looked for, so nothing that the base needs is for it.
    have marked : context.isBound (asked.unit.markGenerated cppType) cppType = true := by
      simp [isBound, UnitState.markGenerated]
    have inner := run_baseFor_queues (run_requireInstantiationTo_of_isBound marked) baseRun
    have outer := synthesize_waits (baseFor_same less _ _ _ _ baseRun) _ _ _ madeRun
    let fits (fragment : Fragment) : Prop :=
      fragment.cppType? = some cppType → context.IsMadeWith template cppType args fragment
    have asks : before.Queues asked fits := .of_eq quiet.pending
    have others := inner.mono fun fragment other => show fits fragment from (absurd · other)
    have own : between.Queues after fits := by
      refine outer.mono fun fragment made same => made.resolve_left fun untyped => ?_
      rw [untyped] at same
      cases same
    exact asks.trans (others.trans own)

theorem ensureInstantiation_waits {value : TypeId} {cppType : String} {args : List String}
    (named : context.unnamedInstantiation? value = some (template, cppType, args)) :
    (context.ensureInstantiation value).Waits fun fragment =>
      fragment.cppType? = some cppType → context.IsMadeWith template cppType args fragment := by
  unfold ensureInstantiation
  rw [named]
  exact .bind (requireInstantiationTo_waits _ _ _ _) fun _ => .pure _

end UnitContext

/-! ## Own arguments -/

/-- A typedef is bound with the first argument list in the spelling of what it names, and with a
`const` in front if that is const; an instantiation that a parameter or result asks for likewise, but
without the `const`.  So builder and base clause get the arguments that are written for the template
itself exactly if no other argument list stands before them, and the bound type is without a
qualifier exactly if a typedef names none. -/
theorem own_arguments_are_passed_iff {context : UnitContext} {type : TypeId} {template : DeclId}
    {written : Text.InstanceName}
    (names : context.speller.NamesInstantiation type template written) :
    (∀ id, (context.tree.decl id).underlyingType = some type →
      context.tree.isStd template = false →
      let bound := Spelling.withConst (context.tree.type type).isConst written.text
      context.namedInstantiation? id = some (template, bound, written.outermostArgs) ∧
        (∀ parent, (context.visitTypedef id parent).Answers fun produced =>
          ∀ fragment ∈ produced,
            context.IsMadeWith template bound written.outermostArgs fragment) ∧
        (bound = written.text ↔ (context.tree.type type).isConst = false)) ∧
    (∀ value, UnitContext.passedType context.tree value = type →
      context.speller.registries.typedefFor?
        (Text.dropCopies "const " (context.tree.canonicalSpelling type)) = none →
      context.unnamedInstantiation? value =
          some (template, written.text, written.outermostArgs) ∧
        (context.ensureInstantiation value).Waits fun fragment =>
          fragment.cppType? = some written.text →
            context.IsMadeWith template written.text written.outermostArgs fragment) ∧
    (written.outermostArgs = written.args ↔ written.OwnFirst) := by
  refine ⟨fun id isType user => ?_, ?_, Text.InstanceName.outermostArgs_eq_iff⟩
  · have named := UnitContext.namedInstantiation?_eq names isType user
    refine ⟨named, fun parent => ?_, names.withConst_eq_iff⟩
    intro before produced after run fragment member
    obtain ⟨_, _, _, read, made⟩ := context.visitTypedef_made id parent _ _ _ run fragment member
    rw [named] at read
    cases Option.some.inj read
    exact made
  · rintro value rfl unnamed
    have named := UnitContext.unnamedInstantiation?_eq names unnamed
    exact ⟨named, UnitContext.ensureInstantiation_waits named⟩

/-- A class template in a namespace, with another one as base, a typedef for an instantiation of it
and a function that takes another instantiation by reference. -/
def parcelUnit : SourceUnit :=
  .ofSteps
    [.add 0 .namespaceDecl "geo",
     .classTemplate 1 "Base" ["U"],
     .classTemplate 1 "Box" ["T"],
     .templateBase 4 2 "T*",
     .specialization 4 "int",
     .named 8,
     .newTypedef .typedefDecl 0 "IntBox" 2,
     .specialization 4 "float",
     .named 10,
     .constRef 4,
     .builtin "void",
     .function .functionDecl 0 "take" 7,
     .param 11 "box" 8]

def parcelContext : UnitContext :=
  .ofUnit 2 parcelUnit .plain .empty "unit.hpp"

theorem parcels_are_made_with_own_arguments :
    (parcelContext.namedInstantiation? 9 = some (4, "geo::Box<int>", ["int"]) ∧
      ∀ parent, (parcelContext.visitTypedef 9 parent).Answers fun produced =>
        ∀ fragment ∈ produced, parcelContext.IsMadeWith 4 "geo::Box<int>" ["int"] fragment) ∧
    (parcelContext.unnamedInstantiation? 8 = some (4, "geo::Box<float>", ["float"]) ∧
      (parcelContext.ensureInstantiation 8).Waits fun fragment =>
        fragment.cppType? = some "geo::Box<float>" →
          parcelContext.IsMadeWith 4 "geo::Box<float>" ["float"] fragment) ∧
    (generateUnits 2 .plain .empty [(parcelUnit, "unit.hpp")]).map (fun turns =>
        turns.flatMap fun turn => turn.fragments.filter fun fragment =>
          fragment.cppType? ∈ [some "geo::Box<int>", some "geo::Box<float>"]) =
      some [.instantiation "rb_cIntBox" "IntBox" "geo::Box<int>" (some "geo::Base<int*>") .global
          (some ⟨"GeoBox_builder", ["int"]⟩),
        .instantiation "rb_cGeoBoxFloat" "BoxFloat" "geo::Box<float>" (some "geo::Base<float*>")
          (.module_ "rb_mGeo") (some ⟨"GeoBox_builder", ["float"]⟩)] := by
  let box (arg : String) : Text.InstanceName := ⟨[⟨"geo", none⟩], "Box", [arg]⟩
  have namesInt : parcelContext.speller.NamesInstantiation 2 4 (box "int") := by decide +kernel
  have namesFloat : parcelContext.speller.NamesInstantiation 6 4 (box "float") := by decide +kernel
  have typedefs := (own_arguments_are_passed_iff namesInt).1 9 (by decide +kernel) (by decide +kernel)
  have values := (own_arguments_are_passed_iff namesFloat).2.1 8 (by decide +kernel)
    (by decide +kernel)
  have int : Spelling.withConst (parcelContext.tree.type 2).isConst (box "int").text =
      "geo::Box<int>" := by
    decide +kernel
  have float : (box "float").text = "geo::Box<float>" := by decide +kernel
  rw [int] at typedefs
  rw [float] at values
  exact ⟨⟨typedefs.1, typedefs.2.1⟩, values, by decide +kernel⟩

/-- A class template nested in another one, and a typedef for a const instantiation of it. -/
def innerUnit : SourceUnit :=
  .ofSteps
    [.classTemplate 0 "Base" ["U"],
     .classTemplate 0 "Outer" ["S"],
     .classTemplate 3 "Inner" ["T"],
     .templateBase 5 1 "T",
     .specialization 5 "float",
     .recordAs 9 "Outer<int>::Inner<float>",
     .const 2,
     .newTypedef .typedefDecl 0 "FloatInner" 4]

/-- The base clause of the nested template gets the argument of the outer one, and the bound type is
const. -/
theorem inner_instantiation_takes_outer_argument :
    ∃ turns, generateUnits 2 .plain .empty [(innerUnit, "unit.hpp")] = some turns ∧
      ∃ turn ∈ turns,
        (turn.context.tree.decl 10).underlyingType = some 4 ∧
        turn.context.speller.NamesInstantiation 4 5
          ⟨[⟨"Outer", some ["int"]⟩], "Inner", ["float"]⟩ ∧
        turn.context.speller.instantiateBase? 5 ["float"] =
          some (.instantiation 1 "Base<float>" ["float"]) ∧
        .instantiation "rb_cFloatInner" "FloatInner" "const Outer<int>::Inner<float>"
          (some "Base<int>") .global none ∈ turn.fragments := by
  have misread : (generateUnits 2 .plain .empty [(innerUnit, "unit.hpp")]).map (fun turns => decide
      (∃ turn ∈ turns,
        (turn.context.tree.decl 10).underlyingType = some 4 ∧
        turn.context.speller.NamesInstantiation 4 5
          ⟨[⟨"Outer", some ["int"]⟩], "Inner", ["float"]⟩ ∧
        turn.context.speller.instantiateBase? 5 ["float"] =
          some (.instantiation 1 "Base<float>" ["float"]) ∧
        .instantiation "rb_cFloatInner" "FloatInner" "const Outer<int>::Inner<float>"
          (some "Base<int>") .global none ∈ turn.fragments)) = some true := by
    decide +kernel
  obtain ⟨turns, run, decided⟩ := Option.map_eq_some_iff.mp misread
  exact ⟨turns, run, of_decide_eq_true decided⟩

end Bindery
