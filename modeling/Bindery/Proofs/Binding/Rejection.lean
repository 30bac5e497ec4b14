import Bindery.Proofs.Binding.Entries

/-!
# Rejected declarations

A declaration can be turned down at many places: by a rule, because it is not exported, because of
its parameters, because of a symbol that its types mention, or because its type or its identifier is
taken.  Wherever that happens the state of the unit is as it was before: nothing has been bound,
nothing waits and no instantiation has been made for its sake.
-/

set_option autoImplicit false

namespace Bindery

namespace Gen

/-- A computation that leaves the state of the unit as it was when it answers with a rejection. -/
def LeavesNoTrace {α : Type} (step : Gen α) (rejects : α → Prop) : Prop :=
  ∀ before value after, step.run before = some (value, after) → rejects value →
    after.unit = before.unit

theorem unit_onlyReports : Gen.unit.OnlyReports := by
  intro before value after run
  rw [run_unit] at run
  cases Option.some.inj run
  rfl

theorem report_onlyReports (event : Event) : (Gen.report event).OnlyReports := by
  intro before value after run
  rw [run_report] at run
  cases Option.some.inj run
  rfl

namespace LeavesNoTrace

variable {α β : Type} {rejects : β → Prop}

theorem pure (value : β) : LeavesNoTrace (Pure.pure value) rejects := by
  intro before result after run _
  obtain ⟨-, rfl⟩ := run_pure_eq_some run
  rfl

/-- An answer that is no rejection may have changed anything. -/
theorem of_answers {step : Gen β} (accepts : step.Answers fun value => ¬ rejects value) :
    step.LeavesNoTrace rejects :=
  fun before value after run rejected => absurd rejected (accepts before value after run)

/-- The first part may change the state where the rest does not reject. -/
theorem bind {first : Gen α} {rest : α → Gen β} {refuses : α → Prop}
    (leaves : first.LeavesNoTrace refuses)
    (refused : ∀ value, refuses value → (rest value).LeavesNoTrace rejects)
    (taken : ∀ value, ¬ refuses value → (rest value).Answers fun result => ¬ rejects result) :
    (first >>= rest).LeavesNoTrace rejects := by
  intro before result after run rejected
  obtain ⟨value, between, firstRun, restRun⟩ := run_bind_eq_some run
  by_cases refusal : refuses value
  · exact (refused value refusal _ _ _ restRun rejected).trans (leaves _ _ _ firstRun refusal)
  · exact absurd rejected (taken value refusal _ _ _ restRun)

theorem afterReports {first : Gen α} {rest : α → Gen β} (reports : first.OnlyReports)
    (leaves : ∀ value, (rest value).LeavesNoTrace rejects) :
    (first >>= rest).LeavesNoTrace rejects :=
  bind (fun before value after run (_ : True) => reports before value after run)
    (fun value _ => leaves value) fun _ untrue => absurd trivial untrue

theorem register (identifier cppType : String) :
    (Gen.register identifier cppType).LeavesNoTrace fun bound => bound = false := by
  rintro before bound after run rfl
  obtain ⟨_, bound, -⟩ | ⟨-, -, rfl⟩ := run_register_eq_some run
  · cases bound
  · rfl

/-- What follows a binding that is made is no rejection. -/
theorem bind_register {identifier cppType : String} {whenBound whenTaken : Gen β}
    (bound : whenBound.Answers fun result => ¬ rejects result)
    (taken : whenTaken.LeavesNoTrace rejects) :
    (Gen.register identifier cppType >>= fun bound =>
      if bound then whenBound else whenTaken).LeavesNoTrace rejects := by
  refine bind (register identifier cppType) (fun value refused => ?_) fun value made => ?_
  · rw [refused]
    exact taken
  · rw [Bool.not_eq_false] at made
    rw [made]
    exact bound

end LeavesNoTrace

end Gen

namespace UnitContext

open Gen

variable {context : UnitContext} {id : DeclId}

/-- Instantiations are made for a function only when its signature is known to be bound. -/
theorem signature_leavesNoTrace (inTemplate : Bool) :
    (context.signature id inTemplate).LeavesNoTrace fun signature => signature = none := by
  unfold signature
  split
  case h_1 refusal unreadable =>
    dsimp only
    split
    · exact .afterReports (report_onlyReports _) fun _ => .pure none
    · exact .pure none
  case h_2 signature readable =>
    dsimp only
    refine .afterReports (mentionsSkipped_onlyReports id _) fun mentions => ?_
    split
    · exact .pure none
    · -- from here on instantiations may be made, and the signature is answered
      refine .of_answers ?_
      split
      · exact .andThen fun _ => .pure nofun
      · exact .pure nofun

/-- What is made of a signature is no rejection. -/
theorem bind_signature_leavesNoTrace {β : Type} {rejects : β → Prop} {inTemplate : Bool}
    {rest : Option Signature → Gen β} (without : (rest none).LeavesNoTrace rejects)
    (made : ∀ signature, (rest (some signature)).Answers fun result => ¬ rejects result) :
    (context.signature id inTemplate >>= rest).LeavesNoTrace rejects := by
  refine .bind (signature_leavesNoTrace inTemplate) (fun signature lacks => ?_)
    fun signature has => ?_
  · rw [lacks]
    exact without
  · obtain ⟨signature, rfl⟩ := Option.ne_none_iff_exists'.mp has
    exact made signature

/-! ## Members -/

section

variable {classType : String} {isAbstract inTemplate : Bool}

theorem constructorMember_leavesNoTrace :
    (context.constructorMember id inTemplate).LeavesNoTrace fun members => members = [] := by
  unfold constructorMember
  split
  · exact .pure []
  · exact bind_signature_leavesNoTrace (.pure _) fun _ => .pure nofun

theorem methodMember_leavesNoTrace :
    (context.methodMember id classType inTemplate).LeavesNoTrace fun members => members = [] := by
  unfold methodMember
  refine .afterReports (skipped_onlyReports id) fun skipped => ?_
  split
  · exact .pure []
  · split
    · exact .pure []
    · exact bind_signature_leavesNoTrace (.pure _) fun _ => .pure nofun

theorem conversionMember_leavesNoTrace :
    (context.conversionMember id classType inTemplate).LeavesNoTrace
      fun members => members = [] := by
  unfold conversionMember
  refine .afterReports (skipped_onlyReports id) fun skipped => ?_
  split
  · exact .pure []
  · split
    · exact .pure []
    · exact bind_signature_leavesNoTrace (.pure _) fun _ => .pure nofun

theorem fieldMember_leavesNoTrace :
    (context.fieldMember id classType).LeavesNoTrace fun members => members = [] := by
  unfold fieldMember
  dsimp only
  split
  · exact .pure []
  · refine .afterReports (skipped_onlyReports id) fun skipped => ?_
    split
    · exact .pure []
    · split
      · exact .pure []
      · refine .afterReports (mentionsSkipped_onlyReports id _) fun mentions => ?_
        split <;> exact .pure _

theorem staticMember_leavesNoTrace :
    (context.staticMember id classType).LeavesNoTrace fun members => members = [] := by
  unfold staticMember
  refine .afterReports (skipped_onlyReports id) fun skipped => ?_
  split
  · exact .pure []
  · dsimp only
    split
    · exact .pure []
    · split <;> exact .pure _

theorem childMembers_leavesNoTrace :
    (context.childMembers classType isAbstract inTemplate id).LeavesNoTrace
      fun members => members = [] := by
  unfold childMembers
  dsimp only
  split
  · exact .pure []
  · split
    · split
      · exact .pure []
      · exact constructorMember_leavesNoTrace
    · split
      · exact .pure []
      · exact methodMember_leavesNoTrace
    · exact conversionMember_leavesNoTrace
    · exact fieldMember_leavesNoTrace
    · exact staticMember_leavesNoTrace
    · exact .pure _
    · exact .pure []

theorem opaqueClass_leavesNoTrace (siblings : List DeclId) :
    (context.opaqueClass siblings id).LeavesNoTrace fun inner => inner = none := by
  unfold opaqueClass
  dsimp only
  split
  · exact .pure none
  · refine .afterReports (skipped_onlyReports id) fun skipped => ?_
    split
    · exact .pure none
    · split
      · exact .pure none
      · exact .bind_register (.pure nofun) (.pure none)

end

/-! ## Fragments -/

/-- Whether a function is an operator that is attached to a class. -/
def IsFreeOperator (context : UnitContext) (id : DeclId) : Prop :=
  (context.tree.decl id).kind = .functionDecl ∧
    Text.startsWith "operator" (context.tree.decl id).spelling = true ∧
      (context.speller.freeOperator? id).isSome

/-- Whether a declaration gives fragments of its own or nothing: it is no mere scope, and it gives
neither a builder nor an operator that waits for its class. -/
structure IsSingle (context : UnitContext) (id : DeclId) : Prop where
  notNamespace : (context.tree.decl id).kind ≠ .namespaceDecl
  notLinkage : (context.tree.decl id).kind ≠ .linkageSpec
  notTemplate : (context.tree.decl id).kind ≠ .classTemplate
  notOperator : ¬ context.IsFreeOperator id

section

variable {parent : Parent}

theorem visitEnum_leavesNoTrace :
    (context.visitEnum id parent).LeavesNoTrace fun produced => produced = [] := by
  unfold visitEnum
  dsimp only
  split
  · exact .pure _
  · refine .afterReports (skipped_onlyReports id) fun skipped => ?_
    split
    · exact .pure []
    · exact .bind_register (.pure nofun) (.pure [])

theorem visitFunction_leavesNoTrace (isFunction : (context.tree.decl id).kind = .functionDecl)
    (notOperator : ¬ context.IsFreeOperator id) :
    (context.visitFunction id parent).LeavesNoTrace fun produced => produced = [] := by
  unfold visitFunction
  refine .afterReports (skipped_onlyReports id) fun skipped => ?_
  split
  · exact .pure []
  · refine .afterReports (exported_onlyReports id) fun exported => ?_
    split
    · exact .pure []
    · split
      case isTrue named =>
        have unknown : context.speller.freeOperator? id = none :=
          Option.not_isSome_iff_eq_none.mp fun known => notOperator ⟨isFunction, named, known⟩
        unfold visitOperator
        rw [unknown]
        exact .pure []
      case isFalse =>
        exact bind_signature_leavesNoTrace (.pure _) fun _ => .pure nofun

theorem visitVariable_leavesNoTrace :
    (context.visitVariable id parent).LeavesNoTrace fun produced => produced = [] := by
  unfold visitVariable
  refine .afterReports (skipped_onlyReports id) fun skipped => ?_
  split
  · exact .pure []
  · dsimp only
    split
    · exact .pure []
    · refine .afterReports (mentionsSkipped_onlyReports id _) fun mentions => ?_
      split
      · exact .pure []
      · split <;> exact .pure _

theorem visitTypedef_leavesNoTrace :
    (context.visitTypedef id parent).LeavesNoTrace fun produced => produced = [] := by
  unfold visitTypedef
  split
  · exact .pure []
  · refine .afterReports (skipped_onlyReports id) fun skipped => ?_
    split
    · exact .pure []
    · split
      · exact .pure []
      · refine .afterReports (skipped_onlyReports _) fun templateSkipped => ?_
        split
        · exact .pure []
        · refine .afterReports (mentionsSkipped_onlyReports id _) fun mentions => ?_
          split
          · exact .pure []
          · refine .afterReports unit_onlyReports fun unit => ?_
            split
            · exact .pure []
            · exact .bind_register (.andThen fun base => .andThen fun builder => .pure nofun)
                (.pure [])

/-- A class that is bound has its own fragment among those that it gives. -/
theorem visitClass_leavesNoTrace {visit : DeclId → Parent → Gen (List Fragment)} :
    (context.visitClass visit id parent).LeavesNoTrace fun produced => produced = [] := by
  unfold visitClass
  dsimp only
  split
  · exact .pure []
  · refine .afterReports (skipped_onlyReports id) fun skipped => ?_
    split
    · exact .pure []
    · refine .afterReports (exported_onlyReports id) fun exported => ?_
      split
      · exact .pure []
      · refine .bind_register ?_ (.pure [])
        refine .andThen fun base => .andThen fun opaqueClasses => .andThen fun members =>
          .andThen fun waiting => .andThen fun nested => .pure fun empty => ?_
        have own := (List.append_eq_nil_iff.mp (List.append_eq_nil_iff.mp empty).1).2
        exact List.cons_ne_nil _ _ own

theorem visitTo_leavesNoTrace (single : context.IsSingle id) (depth : Nat) :
    (context.visitTo depth id parent).LeavesNoTrace fun produced => produced = [] := by
  cases depth with
  | zero => intro before value after run; cases run
  | succ depth =>
      unfold visitTo
      split
      case h_1 isNamespace => exact absurd isNamespace single.notNamespace
      case h_2 isLinkage => exact absurd isLinkage single.notLinkage
      case h_3 | h_4 => exact visitClass_leavesNoTrace
      case h_5 isTemplate => exact absurd isTemplate single.notTemplate
      case h_6 => exact visitEnum_leavesNoTrace
      case h_7 isFunction => exact visitFunction_leavesNoTrace isFunction single.notOperator
      case h_8 => exact visitVariable_leavesNoTrace
      case h_9 | h_10 => exact visitTypedef_leavesNoTrace
      case h_11 => exact .pure []

end

/-- Whether a run turns a declaration down: a visit gives no fragment, or the class around it gets
no member and no opaque class from it. -/
inductive Rejects (context : UnitContext) (id : DeclId) (before after : Progress) : Prop
  | visit {depth : Nat} {parent : Parent} (single : context.IsSingle id)
      (run : (context.visitTo depth id parent).run before = some ([], after)) :
      Rejects context id before after
  | member {classType : String} {isAbstract inTemplate : Bool}
      (run : (context.childMembers classType isAbstract inTemplate id).run before =
        some ([], after)) :
      Rejects context id before after
  | opaqueClass {siblings : List DeclId}
      (run : (context.opaqueClass siblings id).run before = some (none, after)) :
      Rejects context id before after

theorem rejected_declaration_leaves_unit {before after : Progress}
    (rejected : context.Rejects id before after) : after.unit = before.unit := by
  cases rejected with
  | visit single run => exact visitTo_leavesNoTrace single _ _ _ _ run rfl
  | member run => exact childMembers_leavesNoTrace _ _ _ run rfl
  | opaqueClass run => exact opaqueClass_leavesNoTrace _ _ _ _ run rfl

end UnitContext

/-- A class template and two functions that take an instantiation of it, one of them beside an
rvalue reference. -/
def sinkUnit : SourceUnit :=
  .ofSteps
    [.classTemplate 0 "Box" ["T"],
     .specialization 1 "int",
     .named 3,
     .constRef 1,
     .builtin "void",
     .derived .rvalueRef 1,
     .function .functionDecl 0 "take" 6,
     .param 4 "box" 5,
     .function .functionDecl 0 "sink" 6,
     .param 6 "box" 5,
     .param 6 "gone" 8]

def sinkContext : UnitContext :=
  .ofUnit 1 sinkUnit .plain .empty "unit.hpp"

/-- The function with the rvalue reference is turned down before the instantiation that its other
parameter needs is made; the function without it has it made. -/
theorem dropped_sink_makes_no_instantiation :
    (∃ after, (sinkContext.visitTo 1 6 .global).run ⟨.empty, []⟩ = some ([], after) ∧
      after.unit = .empty) ∧
    ∃ produced after, (sinkContext.visitTo 1 4 .global).run ⟨.empty, []⟩ = some (produced, after) ∧
      after.unit.autoGenerated = ["Box<int>"] := by
  have dropped : ((sinkContext.visitTo 1 6 .global).run ⟨.empty, []⟩).map (·.1) = some [] := by
    decide +kernel
  have kept : ((sinkContext.visitTo 1 4 .global).run ⟨.empty, []⟩).map
      (·.2.unit.autoGenerated) = some ["Box<int>"] := by
    decide +kernel
  obtain ⟨⟨produced, after⟩, run, rfl⟩ := Option.map_eq_some_iff.mp dropped
  obtain ⟨⟨taken, later⟩, laterRun, generated⟩ := Option.map_eq_some_iff.mp kept
  have single : sinkContext.IsSingle 6 := by
    refine ⟨?_, ?_, ?_, fun isOperator => absurd isOperator.2.1 ?_⟩ <;> decide +kernel
  exact ⟨⟨after, run, UnitContext.rejected_declaration_leaves_unit (.visit single run)⟩,
    taken, later, laterRun, generated⟩

end Bindery
