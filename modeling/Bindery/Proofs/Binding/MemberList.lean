import Bindery.Proofs.Binding.Composition
import Bindery.Proofs.Binding.Traversal
import Bindery.Proofs.Rules.Skips

/-!
# Members under more skip rules

The members of a class are computed twice, the second time with more skip rules and after whatever
other units.  Child by child the two runs agree, or the second one leaves out what the child gave.
So skip rules only remove members, and what has been bound before does not matter.
-/

set_option autoImplicit false

namespace Bindery

namespace Gen

/-- Whatever the two start from, their answers are related. -/
def Relates {α β : Type} (first : Gen α) (second : Gen β) (holds : α → β → Prop) : Prop :=
  first.Answers fun value => second.Answers fun other => holds value other

namespace Relates

variable {α β γ δ : Type}

theorem pure {value : α} {other : β} {holds : α → β → Prop} (known : holds value other) :
    Relates (Pure.pure value) (Pure.pure other) holds :=
  Answers.pure (Answers.pure known)

theorem bind {first : Gen α} {second : Gen β} {rest : α → Gen γ} {otherRest : β → Gen δ}
    {middle : α → β → Prop} {holds : γ → δ → Prop} (relatesFirst : first.Relates second middle)
    (relatesRest : ∀ value other, middle value other →
      (rest value).Relates (otherRest other) holds) :
    (first >>= rest).Relates (second >>= otherRest) holds := by
  intro before result after run between otherResult last otherRun
  obtain ⟨value, _, firstRun, restRun⟩ := run_bind_eq_some run
  obtain ⟨other, _, secondRun, otherRestRun⟩ := run_bind_eq_some otherRun
  exact relatesRest value other (relatesFirst _ _ _ firstRun _ _ _ secondRun) _ _ _ restRun _ _ _
    otherRestRun

theorem andThen {first : Gen α} {second : Gen β} {rest : α → Gen γ} {otherRest : β → Gen δ}
    {holds : γ → δ → Prop}
    (relatesRest : ∀ value other, (rest value).Relates (otherRest other) holds) :
    (first >>= rest).Relates (second >>= otherRest) holds := by
  have anything : first.Relates second fun _ _ => True := fun _ _ _ _ _ _ _ _ => trivial
  exact .bind anything fun value other _ => relatesRest value other

theorem ite {condition : Prop} [Decidable condition] {first rest : Gen α} {second otherRest : Gen β}
    {holds : α → β → Prop} (whenTrue : condition → first.Relates second holds)
    (whenFalse : ¬ condition → rest.Relates otherRest holds) :
    (if condition then first else rest).Relates
      (if condition then second else otherRest) holds := by
  by_cases decided : condition
  · rw [if_pos decided, if_pos decided]
    exact whenTrue decided
  · rw [if_neg decided, if_neg decided]
    exact whenFalse decided

theorem mapM {step : α → Gen β} {otherStep : α → Gen γ} {holds : α → β → γ → Prop}
    (relates : ∀ value, (step value).Relates (otherStep value) (holds value)) (values : List α) :
    (values.mapM step).Relates (values.mapM otherStep) fun results others =>
      ∃ given : List (α × β × γ), given.map (·.1) = values ∧ given.map (·.2.1) = results ∧
        given.map (·.2.2) = others ∧ ∀ entry ∈ given, holds entry.1 entry.2.1 entry.2.2 := by
  induction values with
  | nil =>
      rw [List.mapM_nil, List.mapM_nil]
      exact .pure ⟨[], rfl, rfl, rfl, nofun⟩
  | cons value rest ih =>
      rw [List.mapM_cons, List.mapM_cons]
      refine .bind (relates value) fun result other known => ?_
      refine .bind ih fun results others found => .pure ?_
      obtain ⟨given, rfl, rfl, rfl, each⟩ := found
      exact ⟨(value, result, other) :: given, rfl, rfl, rfl, List.forall_mem_cons.mpr ⟨known, each⟩⟩

end Relates

end Gen

namespace UnitContext

open Gen

/-- The same unit with another skip table, after other units. -/
def withSkips (context : UnitContext) (skip : SymbolFilter) (index : ProjectIndex) (depth : Nat) :
    UnitContext :=
  { context with options := { context.options with skip }, index, depth }

/-- Whether the rules keep what a declaration gives out of its class: one skips the declaration, or
a type in its signature or its own type mentions a skipped symbol. -/
inductive LeavesOut (context : UnitContext) (id : DeclId) : Prop
  | skipped (found : (context.skipRule? id).isSome)
  | signature {signature : Signature} (reads : context.readSignature id = .ok signature)
      (mentions : (context.skippedMention? (signature.types ++
        (context.tree.decl id).resultType.toList.map context.speller.spell)).isSome)
  | type {type : TypeId} (typed : (context.tree.decl id).type = some type)
      (mentions : (context.skippedMention? [context.speller.spell type]).isSome)

/-- Whether a declaration gives the same as before, or nothing because the rules leave it out. -/
def Agree (context : UnitContext) (id : DeclId) (old new : List Member) : Prop :=
  new = old ∨ new = [] ∧ context.LeavesOut id

theorem Agree.sublist {context : UnitContext} {id : DeclId} {old new : List Member}
    (agree : context.Agree id old new) : new.Sublist old := by
  obtain rfl | ⟨rfl, -⟩ := agree
  · exact List.Sublist.refl _
  · exact List.nil_sublist _

theorem relates_left_out {context : UnitContext} {id : DeclId} (leaves : context.LeavesOut id)
    (first : Gen (List Member)) : first.Relates (Pure.pure []) (context.Agree id) :=
  fun _ _ _ _ => Answers.pure (.inr ⟨rfl, leaves⟩)

section

variable {context : UnitContext} {skip : SymbolFilter} {index : ProjectIndex} {depth : Nat}

@[simp] theorem withSkips_tree : (context.withSkips skip index depth).tree = context.tree :=
  rfl

@[simp] theorem withSkips_speller :
    (context.withSkips skip index depth).speller = context.speller :=
  rfl

@[simp] theorem withSkips_namer :
    (context.withSkips skip index depth).options.namer = context.options.namer :=
  rfl

@[simp] theorem withSkips_accepts (id : DeclId) :
    (context.withSkips skip index depth).accepts id = context.accepts id :=
  rfl

@[simp] theorem withSkips_methodName? (id : DeclId) :
    (context.withSkips skip index depth).methodName? id = context.methodName? id :=
  rfl

@[simp] theorem withSkips_readSignature (id : DeclId) :
    (context.withSkips skip index depth).readSignature id = context.readSignature id :=
  rfl

@[simp] theorem withSkips_methodMembers (id : DeclId) (classType name : String)
    (signature : Signature) :
    (context.withSkips skip index depth).methodMembers id classType name signature =
      context.methodMembers id classType name signature :=
  rfl

variable (covers : skip.Covers context.options.skip)
include covers

theorem skipped_relates (id : DeclId) :
    (context.skipped id).Relates ((context.withSkips skip index depth).skipped id)
      fun skipped other => other = true ∧ (context.withSkips skip index depth).LeavesOut id ∨
        skipped = false ∧ other = false := by
  intro before skipped after run between other last otherRun
  have skips := context.skipped_answers id _ _ _ run
  have otherSkips := (context.withSkips skip index depth).skipped_answers id _ _ _ otherRun
  cases other with
  | true => exact .inl ⟨rfl, .skipped otherSkips.symm⟩
  | false =>
      refine .inr ⟨?_, rfl⟩
      rw [skips, ← Bool.not_eq_true]
      intro looked
      have found : ((context.withSkips skip index depth).skipRule? id).isSome :=
        covers.lookup _ looked
      rw [← otherSkips] at found
      cases found

theorem mentionsSkipped_relates (id : DeclId) (spellings : List String) :
    (context.mentionsSkipped id spellings).Relates
      ((context.withSkips skip index depth).mentionsSkipped id spellings) fun mentions other =>
        other = true ∧
            ((context.withSkips skip index depth).skippedMention? spellings).isSome ∨
          mentions = false ∧ other = false := by
  intro before mentions after run between other last otherRun
  have finds := context.mentionsSkipped_answers id spellings _ _ _ run
  have otherFinds :=
    (context.withSkips skip index depth).mentionsSkipped_answers id spellings _ _ _ otherRun
  cases other with
  | true => exact .inl ⟨rfl, otherFinds.symm⟩
  | false =>
      refine .inr ⟨?_, rfl⟩
      rw [finds, ← Bool.not_eq_true, skippedMention?_isSome_iff]
      rintro ⟨spelling, member, mentioned⟩
      have found := ((context.withSkips skip index depth).skippedMention?_isSome_iff spellings).mpr
        ⟨spelling, member, covers.mentions spelling mentioned⟩
      rw [← otherFinds] at found
      cases found

theorem signature_relates (function : DeclId) (inTemplate : Bool) :
    (context.signature function inTemplate).Relates
      ((context.withSkips skip index depth).signature function inTemplate) fun old new =>
        new = old ∨ new = none ∧ (context.withSkips skip index depth).LeavesOut function := by
  unfold signature
  simp only [withSkips_readSignature, withSkips_tree, withSkips_speller]
  cases reads : context.readSignature function with
  | error refusal =>
      dsimp only
      split
      · exact .andThen fun _ _ => .pure (.inl rfl)
      · exact .pure (.inl rfl)
  | ok signature =>
      dsimp only
      refine .bind (mentionsSkipped_relates covers function _) fun mentions other known => ?_
      rcases known with ⟨rfl, mentioned⟩ | ⟨rfl, rfl⟩
      · exact fun _ _ _ _ => Answers.pure (.inr ⟨rfl, .signature reads mentioned⟩)
      · rw [if_neg Bool.false_ne_true, if_neg Bool.false_ne_true]
        split
        · exact .andThen fun _ _ => .pure (.inl rfl)
        · exact .pure (.inl rfl)

theorem constructorMember_relates (id : DeclId) (inTemplate : Bool) :
    (context.constructorMember id inTemplate).Relates
      ((context.withSkips skip index depth).constructorMember id inTemplate)
      ((context.withSkips skip index depth).Agree id) := by
  unfold constructorMember
  refine .ite (fun _ => .pure (.inl rfl)) fun _ => ?_
  refine .bind (signature_relates covers id inTemplate) fun old new known => .pure ?_
  obtain rfl | ⟨rfl, leaves⟩ := known
  · exact .inl rfl
  · exact .inr ⟨rfl, leaves⟩

theorem methodMember_relates (id : DeclId) (classType : String) (inTemplate : Bool) :
    (context.methodMember id classType inTemplate).Relates
      ((context.withSkips skip index depth).methodMember id classType inTemplate)
      ((context.withSkips skip index depth).Agree id) := by
  unfold methodMember
  refine .bind (skipped_relates covers id) fun skipped other known => ?_
  rcases known with ⟨rfl, leaves⟩ | ⟨rfl, rfl⟩
  · exact relates_left_out leaves _
  · rw [if_neg Bool.false_ne_true, if_neg Bool.false_ne_true, withSkips_methodName?]
    split
    · exact .pure (.inl rfl)
    · refine .bind (signature_relates covers id inTemplate) fun old new known => ?_
      obtain rfl | ⟨rfl, leaves⟩ := known
      · split
        · exact .pure (.inl rfl)
        · exact .pure (.inl rfl)
      · exact relates_left_out leaves _

theorem conversionMember_relates (id : DeclId) (classType : String) (inTemplate : Bool) :
    (context.conversionMember id classType inTemplate).Relates
      ((context.withSkips skip index depth).conversionMember id classType inTemplate)
      ((context.withSkips skip index depth).Agree id) := by
  unfold conversionMember
  refine .bind (skipped_relates covers id) fun skipped other known => ?_
  rcases known with ⟨rfl, leaves⟩ | ⟨rfl, rfl⟩
  · exact relates_left_out leaves _
  · rw [if_neg Bool.false_ne_true, if_neg Bool.false_ne_true, withSkips_tree]
    split
    · exact .pure (.inl rfl)
    · refine .bind (signature_relates covers id inTemplate) fun old new known => .pure ?_
      obtain rfl | ⟨rfl, leaves⟩ := known
      · exact .inl rfl
      · exact .inr ⟨rfl, leaves⟩

theorem fieldMember_relates (id : DeclId) (classType : String) :
    (context.fieldMember id classType).Relates
      ((context.withSkips skip index depth).fieldMember id classType)
      ((context.withSkips skip index depth).Agree id) := by
  unfold fieldMember
  refine .ite (fun _ => .pure (.inl rfl)) fun _ => ?_
  refine .bind (skipped_relates covers id) fun skipped other known => ?_
  rcases known with ⟨rfl, leaves⟩ | ⟨rfl, rfl⟩
  · exact relates_left_out leaves _
  · rw [if_neg Bool.false_ne_true, if_neg Bool.false_ne_true]
    simp only [withSkips_tree, withSkips_speller, withSkips_namer]
    split
    case h_1 => exact .pure (.inl rfl)
    case h_2 type typed =>
      refine .bind (mentionsSkipped_relates covers id _) fun mentions other known => ?_
      rcases known with ⟨rfl, mentioned⟩ | ⟨rfl, rfl⟩
      · have leaves : (context.withSkips skip index depth).LeavesOut id := .type typed mentioned
        exact relates_left_out leaves _
      · exact .pure (.inl rfl)

theorem staticMember_relates (id : DeclId) (classType : String) :
    (context.staticMember id classType).Relates
      ((context.withSkips skip index depth).staticMember id classType)
      ((context.withSkips skip index depth).Agree id) := by
  unfold staticMember
  refine .bind (skipped_relates covers id) fun skipped other known => ?_
  rcases known with ⟨rfl, leaves⟩ | ⟨rfl, rfl⟩
  · exact relates_left_out leaves _
  · rw [if_neg Bool.false_ne_true, if_neg Bool.false_ne_true]
    simp only [withSkips_tree, withSkips_namer]
    split
    · exact .pure (.inl rfl)
    · exact .ite (fun _ => .pure (.inl rfl)) fun _ => .pure (.inl rfl)

theorem childMembers_relates (classType : String) (isAbstract inTemplate : Bool)
    (child : DeclId) :
    (context.childMembers classType isAbstract inTemplate child).Relates
      ((context.withSkips skip index depth).childMembers classType isAbstract inTemplate child)
      ((context.withSkips skip index depth).Agree child) := by
  unfold childMembers
  simp only [withSkips_tree, withSkips_accepts]
  refine .ite (fun _ => .pure (.inl rfl)) fun _ => ?_
  split
  · exact .ite (fun _ => .pure (.inl rfl)) fun _ =>
      constructorMember_relates covers child inTemplate
  · exact .ite (fun _ => .pure (.inl rfl)) fun _ =>
      methodMember_relates covers child classType inTemplate
  · exact conversionMember_relates covers child classType inTemplate
  · exact fieldMember_relates covers child classType
  · exact staticMember_relates covers child classType
  · exact .pure (.inl rfl)
  · exact .pure (.inl rfl)

/-- What the children of a class give under two skip tables stands side by side. -/
structure GivesBoth (context more : UnitContext) (id : DeclId) (classType : String)
    (made other : List Member × List Alias) (given : List (DeclId × List Member × List Member)) :
    Prop where
  children : given.map (·.1) = context.tree.children id
  members : made.1 = context.implicitConstructor id ++ given.flatMap (·.2.1) ++
    (context.speller.iteratorBindings id classType).members
  others : other.1 = context.implicitConstructor id ++ given.flatMap (·.2.2) ++
    (context.speller.iteratorBindings id classType).members
  aliases : other.2 = made.2
  agree : ∀ entry ∈ given, more.Agree entry.1 entry.2.1 entry.2.2

theorem classMembers_relates (id : DeclId) (classType : String) (inTemplate : Bool) :
    (context.classMembers id classType inTemplate).Relates
      ((context.withSkips skip index depth).classMembers id classType inTemplate) fun made other =>
        ∃ given, GivesBoth context (context.withSkips skip index depth) id classType made other
          given := by
  unfold classMembers
  simp only [withSkips_tree, withSkips_speller]
  refine .bind (.mapM (childMembers_relates covers classType _ inTemplate) _)
    fun declared others found => ?_
  obtain ⟨given, children, rfl, rfl, agree⟩ := found
  refine .andThen fun _ _ => .pure ⟨given, children, ?_, ?_, rfl, agree⟩
  · rw [List.flatMap_def]
  · rw [List.flatMap_def]
    rfl

end

theorem flatMap_sublist {α β : Type} {entries : List α} {left right : α → List β}
    (each : ∀ entry ∈ entries, (left entry).Sublist (right entry)) :
    (entries.flatMap left).Sublist (entries.flatMap right) := by
  induction entries with
  | nil => exact List.Sublist.refl _
  | cons entry rest ih =>
      rw [List.flatMap_cons, List.flatMap_cons]
      exact (each entry List.mem_cons_self).append
        (ih fun other member => each other (List.mem_cons_of_mem _ member))

theorem GivesBoth.sublist {context more : UnitContext} {id : DeclId} {classType : String}
    {made other : List Member × List Alias} {given : List (DeclId × List Member × List Member)}
    (gives : context.GivesBoth more id classType made other given) :
    other.1.Sublist made.1 := by
  have inside : (given.flatMap (·.2.2)).Sublist (given.flatMap (·.2.1)) :=
    flatMap_sublist fun entry member => (gives.agree entry member).sublist
  rw [gives.members, gives.others]
  exact ((List.Sublist.refl _).append inside).append (List.Sublist.refl _)

end UnitContext

theorem givesBoth_of_covers {unit : SourceUnit} {options : BindOptions} {skip more : SymbolFilter}
    (covers : more.Covers skip) {index otherIndex : ProjectIndex} {depth otherDepth : Nat}
    {relative classType : String} {id : DeclId} {inTemplate : Bool}
    {before after otherBefore otherAfter : Progress} {made other : List Member × List Alias}
    (run : ((UnitContext.ofUnit depth unit { options with skip } index relative).classMembers id
      classType inTemplate).run before = some (made, after))
    (otherRun : ((UnitContext.ofUnit otherDepth unit { options with skip := more } otherIndex
      relative).classMembers id classType inTemplate).run otherBefore = some (other, otherAfter)) :
    ∃ given, UnitContext.GivesBoth (.ofUnit depth unit options index relative)
      (.ofUnit otherDepth unit { options with skip := more } otherIndex relative) id classType made
        other given := by
  let context := UnitContext.ofUnit depth unit { options with skip } index relative
  have relates : (context.classMembers id classType inTemplate).Relates
      ((context.withSkips more otherIndex otherDepth).classMembers id classType inTemplate) _ :=
    UnitContext.classMembers_relates covers id classType inTemplate
  obtain ⟨given, children, members, others, aliases, agree⟩ :=
    relates _ _ _ run _ _ _ otherRun
  exact ⟨given, children, members, others, aliases, agree⟩

/-- With more skip entries, and after other units, a class has the same members but for those that a
declaration gives that the rules leave out; with the same entries it has the same members. -/
theorem skip_entries_only_remove_members {entries more : List String}
    {rules moreRules : RuleTable} (reads : RuleTable.skips entries = .ok rules)
    (readsMore : RuleTable.skips more = .ok moreRules) (included : entries ⊆ more)
    (unit : SourceUnit) (options : BindOptions) (relative : String)
    (index otherIndex : ProjectIndex) (depth otherDepth : Nat)
    {id : DeclId} {classType : String} {inTemplate : Bool}
    {before after otherBefore otherAfter : Progress} {made other : List Member × List Alias}
    (run : ((UnitContext.ofUnit depth unit { options with skip := .ofRules rules } index
      relative).classMembers id classType inTemplate).run before = some (made, after))
    (otherRun : ((UnitContext.ofUnit otherDepth unit { options with skip := .ofRules moreRules }
      otherIndex relative).classMembers id classType inTemplate).run otherBefore =
        some (other, otherAfter)) :
    other.1.Sublist made.1 ∧ other.2 = made.2 ∧
      (∃ given, UnitContext.GivesBoth (.ofUnit depth unit options index relative)
        (.ofUnit otherDepth unit { options with skip := .ofRules moreRules } otherIndex relative)
          id classType made other given) ∧
      (more ⊆ entries → other = made) := by
  have covers := SymbolFilter.covers_of_subset reads readsMore included
  obtain ⟨given, both⟩ := givesBoth_of_covers covers run otherRun
  refine ⟨both.sublist, both.aliases, ⟨given, both⟩, fun back => ?_⟩
  have covered := SymbolFilter.covers_of_subset readsMore reads back
  obtain ⟨_, reverse⟩ := givesBoth_of_covers covered otherRun run
  exact Prod.ext (both.sublist.antisymm reverse.sublist) both.aliases

/-- A class with two overloads, one of which takes a value of another class. -/
def overloadUnit : SourceUnit :=
  .ofSteps
    [.add 0 .classDecl "B", .add 0 .classDecl "A", .builtin "void", .builtin "int", .named 1,
     .function .method 2 "take" 0, .param 3 "count" 1, .function .method 2 "take" 0,
     .param 5 "other" 2]

def skippingB : RuleTable :=
  ⟨[("B", .skip)], []⟩

def overloadContext (rules : RuleTable) : UnitContext :=
  .ofUnit 0 overloadUnit { BindOptions.plain with skip := .ofRules rules } .empty "unit.hpp"

/-- The overload that takes a skipped class is gone, and nothing else. -/
theorem overload_is_removed :
    RuleTable.skips [] = .ok .empty ∧ RuleTable.skips ["B"] = .ok skippingB ∧
      ∃ made after other otherAfter,
        ((overloadContext .empty).classMembers 2 "A" false).run ⟨.empty, []⟩ = some (made, after) ∧
        ((overloadContext skippingB).classMembers 2 "A" false).run ⟨.empty, []⟩ =
          some (other, otherAfter) ∧
        made.1.length = 3 ∧ other.1.length = 2 ∧ other.1.Sublist made.1 := by
  have reads : RuleTable.skips ["B"] = .ok skippingB := by
    decide +kernel
  have first : (((overloadContext .empty).classMembers 2 "A" false).run ⟨.empty, []⟩).map
      (·.1.1.length) = some 3 := by
    rw [overloadContext, SymbolFilter.ofRules_empty]
    decide +kernel
  have second : (((overloadContext skippingB).classMembers 2 "A" false).run ⟨.empty, []⟩).map
      (·.1.1.length) = some 2 := by
    rw [overloadContext, skippingB, SymbolFilter.ofRules_of_simple (by decide +kernel)]
    decide +kernel
  obtain ⟨⟨made, after⟩, run, three⟩ := Option.map_eq_some_iff.mp first
  obtain ⟨⟨other, otherAfter⟩, otherRun, two⟩ := Option.map_eq_some_iff.mp second
  exact ⟨rfl, reads, made, after, other, otherAfter, run, otherRun, three, two,
    (skip_entries_only_remove_members rfl reads (List.nil_subset _) overloadUnit .plain "unit.hpp"
      .empty .empty 0 0 run otherRun).1⟩

end Bindery
