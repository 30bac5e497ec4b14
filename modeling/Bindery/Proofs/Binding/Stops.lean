import Bindery.Proofs.Binding.Demand
import Bindery.Proofs.Binding.Entries
import Bindery.Proofs.Binding.Idle

/-!
# Stops

A visit of a declaration gives some fragments by itself, and then it goes on with declarations
inside.  Where it stops in between it has made all that comes of the declaration alone.
-/

set_option autoImplicit false

namespace Bindery

/-- What a visit comes to before it goes on: the fragments that it gives by itself, the declarations
inside that it goes on with, and what they are attached to. -/
structure Stop where
  fragments : List Fragment
  inside : List DeclId
  home : Parent

namespace UnitContext

/-- A stop with nothing to go on with. -/
def stopWith (parent : Parent) (step : Gen (List Fragment)) : Gen Stop := do
  return ⟨← step, [], parent⟩

def stopAtNamespace (context : UnitContext) (id : DeclId) (parent : Parent) : Gen Stop := do
  let decl := context.tree.decl id
  let children := context.tree.children id
  if decl.anonymous then
    return ⟨[], [], parent⟩
  else if decl.has .isInlineNamespace then
    return ⟨[], children, parent⟩
  else if ← context.skipped id then
    return ⟨[], [], parent⟩
  else
    let opened ← context.openNamespace id parent
    return ⟨opened.toList, children, .module_ (context.moduleIdentifier id)⟩

def stopAtClass (context : UnitContext) (id : DeclId) (parent : Parent) : Gen Stop := do
  let decl := context.tree.decl id
  if decl.anonymous then
    return ⟨[], [], parent⟩
  else if ← context.skipped id then
    return ⟨[], [], parent⟩
  else if !(← context.exported id) then
    return ⟨[], [], parent⟩
  else
    let cppType := context.tree.qualifiedName id
    let identifier := Name.classIdentifier cppType
    if ← Gen.register identifier cppType then
      let base ← context.declaredBase (context.speller.resolveBase? id [] [])
      let opaqueClasses ← context.opaqueClasses id
      let (members, aliases) ← context.classMembers id cppType false
      let inside := Parent.class_ identifier
      let (before, behind) := (← Gen.takePending).span (·.parent != inside)
      let name := context.options.namer.className decl.spelling cppType
      return ⟨before
        ++ .class_ ⟨identifier, name, cppType, base, parent, opaqueClasses, members, aliases⟩
        :: behind, nestedDeclarations context.tree id, inside⟩
    else
      return ⟨[], [], parent⟩

/-- What the visit of a declaration does by itself. -/
def stopAt (context : UnitContext) (id : DeclId) (parent : Parent) : Gen Stop :=
  match (context.tree.decl id).kind with
  | .namespaceDecl => context.stopAtNamespace id parent
  | .linkageSpec => return ⟨[], context.tree.children id, parent⟩
  | .classDecl | .structDecl => context.stopAtClass id parent
  | .classTemplate => stopWith parent do
      context.visitClassTemplate id
      return []
  | .enumDecl => stopWith parent (context.visitEnum id parent)
  | .functionDecl => stopWith parent (context.visitFunction id parent)
  | .varDecl => stopWith parent (context.visitVariable id parent)
  | .typedefDecl | .typeAlias => stopWith parent (context.visitTypedef id parent)
  | _ => return ⟨[], [], parent⟩

/-- Goes on from a stop. -/
def goOn (context : UnitContext) (visit : DeclId → Parent → Gen (List Fragment)) (stop : Stop) :
    Gen (List Fragment) := do
  return stop.fragments ++ (← context.visitAll visit stop.inside stop.home)

section

variable {context : UnitContext} {visit : DeclId → Parent → Gen (List Fragment)}

theorem goOn_leaf (fragments : List Fragment) (home : Parent) :
    context.goOn visit ⟨fragments, [], home⟩ = pure fragments := by
  simp [goOn, visitAll]

theorem stopWith_goOn (parent : Parent) (step : Gen (List Fragment)) :
    stopWith parent step >>= context.goOn visit = step := by
  simp [stopWith, goOn_leaf]

theorem visitNamespace_eq (id : DeclId) (parent : Parent) :
    context.visitNamespace visit id parent =
      context.stopAtNamespace id parent >>= context.goOn visit := by
  unfold visitNamespace stopAtNamespace
  dsimp only
  split
  · rw [pure_bind, goOn_leaf]
  · split
    · simp [goOn]
    · rw [bind_assoc]
      refine bind_congr fun skipped => ?_
      split
      · rw [pure_bind, goOn_leaf]
      · simp [goOn]

theorem visitClass_eq (id : DeclId) (parent : Parent) :
    context.visitClass visit id parent =
      context.stopAtClass id parent >>= context.goOn visit := by
  unfold visitClass stopAtClass
  dsimp only
  split
  · rw [pure_bind, goOn_leaf]
  · rw [bind_assoc]
    refine bind_congr fun skipped => ?_
    split
    · rw [pure_bind, goOn_leaf]
    · rw [bind_assoc]
      refine bind_congr fun exported => ?_
      split
      · rw [pure_bind, goOn_leaf]
      · rw [bind_assoc]
        refine bind_congr fun bound => ?_
        split
        · simp [goOn]
        · rw [pure_bind, goOn_leaf]

/-- A visit stops at the declaration and goes on. -/
theorem visitTo_succ (depth : Nat) (id : DeclId) (parent : Parent) :
    context.visitTo (depth + 1) id parent =
      context.stopAt id parent >>= context.goOn (context.visitTo depth) := by
  unfold visitTo stopAt
  cases (context.tree.decl id).kind with
  | namespaceDecl => exact visitNamespace_eq id parent
  | linkageSpec => simp [goOn]
  | classDecl => exact visitClass_eq id parent
  | structDecl => exact visitClass_eq id parent
  | classTemplate | enumDecl | functionDecl | varDecl | typedefDecl | typeAlias =>
      exact (stopWith_goOn parent _).symm
  | _ => rw [pure_bind, goOn_leaf]

end

end UnitContext

/-! ## What a stop inherits -/

namespace Gen.IsCarried

variable {holds : ∀ {α : Type}, Gen α → Prop} (rules : IsCarried holds)
  (take : holds Gen.takePending) {context : UnitContext} {id : DeclId} {parent : Parent}
include rules

theorem stopAtNamespace : holds (context.stopAtNamespace id parent) := by
  unfold UnitContext.stopAtNamespace
  dsimp only
  split
  · exact rules.pure _
  · split
    · exact rules.pure _
    · refine rules.bind (rules.skipped context id) fun skipped => ?_
      split
      · exact rules.pure _
      · exact rules.bind_openNamespace context fun opened _ => rules.pure _

include take

theorem stopAtClass : holds (context.stopAtClass id parent) := by
  unfold UnitContext.stopAtClass
  dsimp only
  split
  · exact rules.pure _
  · refine rules.bind (rules.skipped context id) fun skipped => ?_
    split
    · exact rules.pure _
    · refine rules.bind (rules.exported context id) fun exported => ?_
      split
      · exact rules.pure _
      · refine rules.bind (rules.register _ _) fun bound => ?_
        split
        · refine rules.bind (rules.declaredBase context _) fun base => ?_
          refine rules.bind (rules.opaqueClasses rules.register) fun opaqueClasses => ?_
          refine rules.bind (rules.members context _ _ _) fun made => ?_
          exact rules.bind take fun waiting => rules.pure _
        · exact rules.pure _

/-- Only a class template and a function need more than the operations that are carried. -/
theorem stopAt
    (template : (context.tree.decl id).kind = .classTemplate →
      holds (context.visitClassTemplate id))
    (function : (context.tree.decl id).kind = .functionDecl →
      holds (context.visitFunction id parent)) : holds (context.stopAt id parent) := by
  have leaf {step : Gen (List Fragment)} (known : holds step) :
      holds (UnitContext.stopWith parent step) :=
    rules.bind known fun _ => rules.pure _
  unfold UnitContext.stopAt
  split
  case h_1 => exact rules.stopAtNamespace
  case h_2 => exact rules.pure _
  case h_3 => exact rules.stopAtClass take
  case h_4 => exact rules.stopAtClass take
  case h_5 isTemplate => exact leaf (rules.bind (template isTemplate) fun _ => rules.pure _)
  case h_6 => exact leaf (rules.visitEnum rules.register)
  case h_7 isFunction => exact leaf (function isFunction)
  case h_8 => exact leaf (rules.visitVariable context id parent)
  case h_9 => exact leaf (rules.anyTypedef context id parent)
  case h_10 => exact leaf (rules.anyTypedef context id parent)
  case h_11 => exact rules.pure _

end Gen.IsCarried

namespace UnitContext

/-! ## What a leg gives -/

theorem IsVisited.accepted {context : UnitContext} {id : DeclId}
    (visited : context.IsVisited id) : context.accepts id = true := by
  cases visited with
  | top _ accepted => exact accepted
  | inside _ _ _ accepted => exact accepted

theorem signature_answers {context : UnitContext} (function : DeclId) (inTemplate : Bool) :
    (context.signature function inTemplate).Answers fun result =>
      ∀ signature ∈ result, context.HasSignature function signature := by
  unfold signature
  split
  case h_1 refusal _ =>
    dsimp only
    split
    · exact .andThen fun _ => .pure nofun
    · exact .pure nofun
  case h_2 signature readable =>
    dsimp only
    refine .bind (context.mentionsSkipped_answers function _) fun mentions same => ?_
    split
    case isTrue => exact .pure nofun
    case isFalse unmentioned =>
      have has : ∀ found ∈ some signature, context.HasSignature function found := by
        intro found member
        cases Option.some.inj member
        rw [same, Bool.not_eq_true, Option.isSome_eq_false_iff, Option.isNone_iff_eq_none]
          at unmentioned
        exact ⟨readable, unmentioned⟩
      split
      · exact .andThen fun _ => .pure has
      · exact .pure has

/-- The fragments that a declaration without others inside gives of its own. -/
inductive GivesOwn (context : UnitContext) (id : DeclId) (parent : Parent) : List Fragment → Prop
  | nothing : GivesOwn context id parent []
  | enum (isEnum : (context.tree.decl id).kind = .enumDecl)
      (kept : context.skipRule? id = none) :
      GivesOwn context id parent
        [.enum (Name.classIdentifier (context.tree.qualifiedName id))
          (context.options.namer.className (context.tree.decl id).spelling
            (context.tree.qualifiedName id))
          (context.tree.qualifiedName id) parent
          (context.enumValues id (context.tree.qualifiedName id))]
  /-- The values of an enum without a name. -/
  | values (isEnum : (context.tree.decl id).kind = .enumDecl) :
      GivesOwn context id parent
        ((context.enumValues id (context.enumScope id)).map fun (name, value) =>
          .constant parent name value)
  | function {signature : Signature} (isFunction : (context.tree.decl id).kind = .functionDecl)
      (kept : context.skipRule? id = none) (exported : context.isExported id = true)
      (has : context.HasSignature id signature) :
      GivesOwn context id parent
        [.function parent
          ⟨context.options.namer.methodName (context.methodShape id)
              (context.tree.qualifiedName id),
            "&" ++ context.tree.qualifiedName id,
            if context.overloaded id then some (context.speller.functionSignature id) else none,
            signature.args, context.returnsBuffer id⟩]
  | constant (isVariable : (context.tree.decl id).kind = .varDecl)
      (kept : context.skipRule? id = none) :
      GivesOwn context id parent
        [.constant parent
          (context.options.namer.constantName (context.tree.decl id).spelling
            (context.tree.qualifiedName id)) (context.tree.qualifiedName id)]
  | variable_ {isArray : Bool} (isVariable : (context.tree.decl id).kind = .varDecl)
      (kept : context.skipRule? id = none) :
      GivesOwn context id parent
        [.variable_ parent
          (context.options.namer.attributeName (context.tree.decl id).spelling
            (context.tree.qualifiedName id)) ("&" ++ context.tree.qualifiedName id) isArray]

section

variable {context : UnitContext} {id : DeclId} {parent : Parent}

theorem GivesOwn.isDeclared {fragments : List Fragment}
    (gives : context.GivesOwn id parent fragments) :
    ∀ fragment ∈ fragments, fragment.isDeclared = true := by
  cases gives with
  | nothing => exact nofun
  | values => exact List.forall_mem_map.mpr fun _ _ => rfl
  | _ => exact List.forall_mem_singleton.mpr rfl

/-- What is done with a declaration that no rule skips may rely on that. -/
theorem bind_skipped_answers {α : Type} {whenSkipped whenKept : Gen α} {holds : α → Prop}
    (skips : whenSkipped.Answers holds)
    (keeps : context.skipRule? id = none → whenKept.Answers holds) :
    (context.skipped id >>= fun skipped =>
      if skipped then whenSkipped else whenKept).Answers holds := by
  refine .bind (context.skipped_answers id) fun skipped same => ?_
  split
  case isTrue => exact skips
  case isFalse kept =>
    rw [same, Bool.not_eq_true, Option.isSome_eq_false_iff, Option.isNone_iff_eq_none] at kept
    exact keeps kept

theorem visitEnum_gives (isEnum : (context.tree.decl id).kind = .enumDecl) :
    (context.visitEnum id parent).Answers (context.GivesOwn id parent) := by
  unfold visitEnum
  dsimp only
  split
  · exact .pure (.values isEnum)
  · refine bind_skipped_answers (.pure .nothing) fun kept => .andThen fun bound => ?_
    split
    · exact .pure (.enum isEnum kept)
    · exact .pure .nothing

theorem exported_answers (id : DeclId) :
    (context.exported id).Answers fun exported => exported = context.isExported id := by
  unfold exported
  split
  case isTrue shown => exact .pure shown.symm
  case isFalse hidden => exact .andThen fun _ => .pure (Bool.eq_false_iff.mpr hidden).symm

theorem visitFunction_gives (isFunction : (context.tree.decl id).kind = .functionDecl) :
    (context.visitFunction id parent).Answers (context.GivesOwn id parent) := by
  unfold visitFunction
  refine bind_skipped_answers (.pure .nothing) fun kept => ?_
  refine .bind (exported_answers id) fun exported same => ?_
  split
  case isTrue => exact .pure .nothing
  case isFalse shown =>
    rw [same, Bool.not_eq_true', Bool.not_eq_false] at shown
    split
    · exact .andThen fun _ => .pure .nothing
    · refine .bind (signature_answers id false) fun signature has => ?_
      split
      · exact .pure .nothing
      · exact .pure (.function isFunction kept shown (has _ rfl))

theorem visitVariable_gives (isVariable : (context.tree.decl id).kind = .varDecl) :
    (context.visitVariable id parent).Answers (context.GivesOwn id parent) := by
  unfold visitVariable
  refine bind_skipped_answers (.pure .nothing) fun kept => ?_
  dsimp only
  split
  · exact .pure .nothing
  · refine .andThen fun mentions => ?_
    split
    · exact .pure .nothing
    · split
      · exact .pure (.constant isVariable kept)
      · exact .pure (.variable_ isVariable kept)

theorem visitTypedef_isOnDemand :
    (context.visitTypedef id parent).Answers fun produced =>
      ∀ fragment ∈ produced, fragment.isDeclared = false := by
  have silent : (pure [] : Gen (List Fragment)).Answers fun produced =>
      ∀ fragment ∈ produced, fragment.isDeclared = false :=
    .pure (List.forall_mem_nil _)
  unfold visitTypedef
  split
  · exact silent
  · refine .andThen fun skipped => ?_
    split
    · exact silent
    · split
      · exact silent
      · refine .andThen fun templateSkipped => ?_
        split
        · exact silent
        · refine .andThen fun mentions => ?_
          split
          · exact silent
          · refine .andThen fun state => ?_
            split
            · exact silent
            · refine .andThen fun bound => ?_
              split
              · refine .andThen fun base => .andThen fun builder => .pure ?_
                exact List.forall_mem_singleton.mpr rfl
              · exact silent

end

end UnitContext

end Bindery
