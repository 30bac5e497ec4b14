import Bindery.Proofs.Binding.Composition
import Bindery.Proofs.Tree.Grounded
import Mathlib.Data.Set.Card

/-!
# What the synthesis of a base reaches

For the sake of a base that is a missing instantiation its own base is needed, and so on.  The only
thing that stops the synthesis is a base that is bound, marked or refused; so it ends if and only if
the instantiations that it reaches have finitely many spellings.
-/

set_option autoImplicit false

namespace Bindery

/-! ## Computations that end -/

namespace Gen

/-- A computation that has a result whatever the progress. -/
def IsTotal {α : Type} (step : Gen α) : Prop :=
  ∀ progress, (step.run progress).isSome

namespace IsTotal

variable {α β : Type}

theorem pure (value : α) : IsTotal (Pure.pure value : Gen α) :=
  fun _ => rfl

theorem bind {first : Gen α} {rest : α → Gen β} (totalFirst : first.IsTotal)
    (totalRest : ∀ value, (rest value).IsTotal) : (first >>= rest).IsTotal := by
  intro progress
  obtain ⟨⟨value, between⟩, run⟩ := Option.isSome_iff_exists.mp (totalFirst progress)
  rw [run_bind_of_eq_some run]
  exact totalRest value between

theorem unit : IsTotal Gen.unit :=
  fun _ => rfl

theorem report (event : Event) : IsTotal (Gen.report event) :=
  fun _ => rfl

theorem change (update : UnitState → UnitState) : IsTotal (Gen.change update) :=
  fun _ => rfl

theorem takePending : IsTotal Gen.takePending :=
  fun _ => rfl

theorem enqueue (fragment : Fragment) : IsTotal (Gen.enqueue fragment) :=
  fun _ => rfl

theorem register (identifier cppType : String) : IsTotal (Gen.register identifier cppType) := by
  intro progress
  rw [run_register]
  split <;> rfl

theorem isInherited : IsInherited IsTotal where
  pure := pure
  bind := bind
  report := report
  addTraits _ := change _

end IsTotal

theorem isSome_run_bind_iff {α β : Type} {first : Gen α} {rest : α → Gen β} {progress : Progress}
    (total : ∀ value, (rest value).IsTotal) :
    ((first >>= rest).run progress).isSome ↔ (first.run progress).isSome := by
  rw [StateT.run_bind]
  cases run : first.run progress with
  | none => rfl
  | some result => exact iff_of_true (total result.1 result.2) rfl

end Gen

namespace UnitContext

variable {context : UnitContext}

theorem skipped_isTotal (id : DeclId) : (context.skipped id).IsTotal :=
  Gen.IsTotal.isInherited.skipped context id

theorem mentionsSkipped_isTotal (id : DeclId) (spellings : List String) :
    (context.mentionsSkipped id spellings).IsTotal :=
  Gen.IsTotal.isInherited.mentionsSkipped context id spellings

theorem exported_isTotal (id : DeclId) : (context.exported id).IsTotal :=
  Gen.IsTotal.isInherited.exported context id

theorem builderCall_isTotal (template : DeclId) (args : List String) :
    (context.builderCall template args).IsTotal := by
  unfold builderCall
  refine .bind .unit fun unit => ?_
  split
  · exact .pure _
  · split
    · exact .bind (.change _) fun _ => .pure _
    · exact .pure none

theorem openNamespace_isTotal (id : DeclId) (parent : Parent) :
    (context.openNamespace id parent).IsTotal := by
  unfold openNamespace
  refine .bind .unit fun unit => ?_
  split
  · exact .pure none
  · exact .bind (.change _) fun _ => .pure _

/-- The way up from a declaration is no longer than its number, since a scope comes before what it
holds. -/
theorem ensureScopeTo_isTotal (grounded : context.tree.IsGrounded) {depth : Nat}
    {scope : Option DeclId} (deep : ∀ id, scope = some id → id < depth) :
    (context.ensureScopeTo depth scope).IsTotal := by
  induction depth generalizing scope with
  | zero =>
      cases scope with
      | none => exact .pure _
      | some id => exact absurd (deep id rfl) (Nat.not_lt_zero id)
  | succ depth ih =>
      cases scope with
      | none => exact .pure _
      | some id =>
          have around : (context.ensureScopeTo depth (context.tree.semanticParent id)).IsTotal :=
            ih fun parent inside =>
              (grounded.parent_lt inside).trans_le (Nat.le_of_lt_succ (deep id rfl))
          unfold ensureScopeTo
          dsimp only
          split
          · exact .pure _
          · refine .bind around fun outer => ?_
            split
            · refine .bind (openNamespace_isTotal id outer) fun opened => ?_
              cases opened with
              | none => exact .pure _
              | some fragment => exact .bind (.enqueue fragment) fun _ => .pure _
            · exact .pure outer
          iterate 3
            · refine .bind .unit fun unit => ?_
              split
              · exact .pure _
              · exact around
          · exact around

theorem ensureScope_isTotal (grounded : context.tree.IsGrounded) (id : DeclId) :
    (context.ensureScope (context.tree.semanticParent id)).IsTotal := by
  refine ensureScopeTo_isTotal grounded fun parent inside => ?_
  have above : parent < id := grounded.parent_lt inside
  exact above.trans (Nat.lt_succ_of_lt (DeclTree.lt_size_of_semanticParent inside))

theorem synthesize_isTotal (grounded : context.tree.IsGrounded) (template : DeclId)
    (cppType : String) (args : List String) (base : Option String) :
    (context.synthesize template cppType args base).IsTotal := by
  unfold synthesize
  refine .bind (ensureScope_isTotal grounded template) fun parent => ?_
  refine .bind (.register _ _) fun bound => ?_
  split
  · exact .bind (builderCall_isTotal _ _) fun _ => .bind (.report _) fun _ => .enqueue _
  · exact .pure _

/-! ## Missing bases -/

/-- Whether the rules admit an instantiation. -/
def admits (context : UnitContext) (template : DeclId) (cppType : String)
    (args : List String) : Bool :=
  !context.tree.isStd template
    && (context.options.skip.lookup
        [cppType, (context.tree.decl template).spelling, Text.joinArgs args]).isNone
    && (context.options.skip.mentionedIn cppType).isNone

theorem run_admitsInstantiation (template : DeclId) (cppType : String) (args : List String)
    (progress : Progress) :
    ∃ events, (context.admitsInstantiation template cppType args).run progress =
      some (context.admits template cppType args, progress.report events) := by
  unfold admitsInstantiation admits
  split
  case isTrue std => exact ⟨[], by simp [std, Progress.report]⟩
  case isFalse outside =>
    dsimp only
    split
    case h_1 found looked => exact ⟨[.baseSkippedByRule cppType found.candidate], by simp [looked]⟩
    case h_2 unlooked =>
      split
      case h_1 symbol mentioned =>
        exact ⟨[.baseMentionsSkipped cppType symbol], by simp [mentioned]⟩
      case h_2 unmentioned =>
        exact ⟨[], by simp [outside, unlooked, unmentioned, Progress.report]⟩

/-- Whether a base is an instantiation that has to be synthesized before its use. -/
def isMissing (context : UnitContext) (unit : UnitState) : BaseClass → Bool
  | .instantiation template cppType args =>
      context.admits template cppType args && !context.isBound unit cppType
  | .plain _ _ => false

/-- The bases that have to be synthesized for the sake of a base: it itself if it is missing; then,
once it is marked, its own base; and so on. -/
inductive Reaches (context : UnitContext) : UnitState → BaseClass → BaseClass → Prop
  | self {unit : UnitState} {base : BaseClass} (missing : context.isMissing unit base = true) :
      Reaches context unit base base
  | further {unit : UnitState} {template : DeclId} {cppType : String} {args : List String}
      {base reached : BaseClass}
      (missing : context.isMissing unit (.instantiation template cppType args) = true)
      (derived : context.speller.instantiateBase? template args = some base)
      (reaches : Reaches context (unit.markGenerated cppType) base reached) :
      Reaches context unit (.instantiation template cppType args) reached

/-- The spellings of the bases that have to be synthesized for the sake of a base. -/
def reachedTypes (context : UnitContext) (unit : UnitState) (base : BaseClass) : Set String :=
  {cppType | ∃ reached, context.Reaches unit base reached ∧ reached.cppType = cppType}

variable {unit : UnitState} {base reached : BaseClass}

theorem isBound_markGenerated (marked cppType : String) :
    context.isBound (unit.markGenerated marked) cppType =
      (cppType == marked || context.isBound unit cppType) := by
  change (_ || (_ == _ || _) || _) = _
  rw [isBound]
  ac_rfl

theorem not_mem_autoGenerated_of_isMissing (missing : context.isMissing unit base = true) :
    base.cppType ∉ unit.autoGenerated := by
  intro marked
  cases base with
  | plain => cases missing
  | instantiation template cppType args =>
      have bound : context.isBound unit cppType = true := by
        have contained : unit.autoGenerated.contains cppType = true :=
          List.contains_iff_mem.mpr marked
        rw [isBound, contained, Bool.or_true, Bool.true_or]
      simp [isMissing, bound] at missing

namespace Reaches

theorem isMissing (reaches : context.Reaches unit base reached) :
    context.isMissing unit base = true := by
  cases reaches with
  | self missing => exact missing
  | further missing => exact missing

/-- What has been marked on the way is not reached again. -/
theorem not_mem_autoGenerated (reaches : context.Reaches unit base reached) :
    reached.cppType ∉ unit.autoGenerated := by
  induction reaches with
  | self missing => exact not_mem_autoGenerated_of_isMissing missing
  | further _ _ _ ih => exact fun marked => ih (List.mem_cons_of_mem _ marked)

end Reaches

/-! ## Bases that settle -/

/-- At most `depth` instantiations have to be synthesized for the sake of a base. -/
inductive Settles (context : UnitContext) : Nat → UnitState → BaseClass → Prop
  | idle {depth : Nat} {unit : UnitState} {base : BaseClass}
      (present : context.isMissing unit base = false) : Settles context depth unit base
  | made {depth : Nat} {unit : UnitState} {template : DeclId} {cppType : String}
      {args : List String}
      (further : ∀ base, context.speller.instantiateBase? template args = some base →
        Settles context depth (unit.markGenerated cppType) base) :
      Settles context (depth + 1) unit (.instantiation template cppType args)

namespace Settles

variable {depth : Nat}

/-- Where more is bound, a base settles no later. -/
theorem mono (settles : context.Settles depth unit base) {more : Nat} (le : depth ≤ more)
    {later : UnitState}
    (bound : ∀ cppType, context.isBound unit cppType = true →
      context.isBound later cppType = true) : context.Settles more later base := by
  induction settles generalizing more later with
  | @idle depth unit base present =>
      refine .idle ?_
      cases base with
      | plain => rfl
      | instantiation template cppType args =>
          rw [isMissing, Bool.and_eq_false_iff, Bool.not_eq_false'] at present ⊢
          exact present.imp id (bound cppType)
  | @made depth unit template cppType args _ ih =>
      cases more with
      | zero => exact absurd le (Nat.not_succ_le_zero depth)
      | succ more =>
          refine .made fun base derived => ih base derived (Nat.le_of_succ_le_succ le) ?_
          intro other known
          rw [isBound_markGenerated, Bool.or_eq_true] at known ⊢
          exact known.imp id (bound other)

/-- The instantiations that are synthesized differ in their spellings, each being marked. -/
theorem reachedTypes_finite (settles : context.Settles depth unit base) :
    (context.reachedTypes unit base).Finite := by
  induction settles with
  | idle present =>
      refine Set.Finite.subset Set.finite_empty ?_
      rintro _ ⟨reached, reaches, rfl⟩
      rw [reaches.isMissing] at present
      cases present
  | @made depth unit template cppType args _ ih =>
      cases derived : context.speller.instantiateBase? template args with
      | none =>
          refine (Set.finite_singleton cppType).subset ?_
          rintro _ ⟨reached, reaches, rfl⟩
          cases reaches with
          | self => rfl
          | further _ found => rw [derived] at found; cases found
      | some base =>
          refine ((ih base derived).insert cppType).subset ?_
          rintro _ ⟨reached, reaches, rfl⟩
          cases reaches with
          | self => exact Set.mem_insert _ _
          | further _ found further =>
              cases derived.symm.trans found
              exact Set.mem_insert_of_mem _ ⟨reached, further, rfl⟩

/-- If finitely many spellings are reached, then no more instantiations are synthesized. -/
theorem of_reachedTypes_finite (finite : (context.reachedTypes unit base).Finite) :
    context.Settles (context.reachedTypes unit base).ncard unit base := by
  induction count : (context.reachedTypes unit base).ncard using Nat.strong_induction_on
    generalizing unit base with
  | _ n ih =>
    subst count
    cases missing : context.isMissing unit base with
    | false => exact .idle missing
    | true =>
        cases base with
        | plain => cases missing
        | instantiation template cppType args =>
            have own : cppType ∈ context.reachedTypes unit (.instantiation template cppType args) :=
              ⟨_, .self missing, rfl⟩
            have positive := (Set.ncard_pos finite).mpr ⟨cppType, own⟩
            obtain ⟨less, count⟩ := Nat.exists_eq_succ_of_ne_zero positive.ne'
            rw [count]
            refine .made fun base derived => ?_
            have smaller : context.reachedTypes (unit.markGenerated cppType) base ⊂
                context.reachedTypes unit (.instantiation template cppType args) := by
              refine Set.ssubset_iff_of_subset ?_ |>.mpr ⟨cppType, own, ?_⟩
              · rintro _ ⟨reached, reaches, rfl⟩
                exact ⟨reached, .further missing derived reaches, rfl⟩
              · rintro ⟨reached, reaches, same⟩
                exact reaches.not_mem_autoGenerated (same ▸ List.mem_cons_self)
            have fewer := Set.ncard_lt_ncard smaller finite
            have settles := ih _ fewer (finite.subset smaller.subset) rfl
            exact settles.mono (Nat.le_of_lt_succ (count ▸ fewer)) fun _ known => known

end Settles

theorem exists_settles_iff :
    (∃ depth, context.Settles depth unit base) ↔ (context.reachedTypes unit base).Finite := by
  constructor
  · rintro ⟨depth, settles⟩
    exact settles.reachedTypes_finite
  · intro finite
    exact ⟨_, .of_reachedTypes_finite finite⟩

/-! ## Synthesis -/

theorem bindBase_plain_isTotal (require : DeclId → String → List String → Gen (Option String))
    (cppType : String) (decl : Option DeclId) :
    (context.bindBase require (.plain cppType decl)).IsTotal := by
  have rest : ∀ excluded : Bool, Gen.IsTotal
      (if excluded || (context.options.skip.mentionedIn cppType).isSome then
        pure none
      else
        pure (some cppType) : Gen (Option String)) := by
    intro excluded
    split
    · exact .pure none
    · exact .pure _
  unfold bindBase
  dsimp only
  cases decl with
  | none => exact .bind (.pure false) rest
  | some id =>
      dsimp only
      split
      · exact .bind (.pure true) rest
      · exact .bind (skipped_isTotal id) rest

variable {depth : Nat} {template : DeclId} {cppType : String} {args : List String}
  {progress : Progress}

theorem run_requireInstantiationTo_of_present
    (present : context.isMissing progress.unit (.instantiation template cppType args) = false) :
    ((context.requireInstantiationTo depth template cppType args).run progress).isSome := by
  obtain ⟨events, admitsRun⟩ := context.run_admitsInstantiation template cppType args progress
  unfold requireInstantiationTo
  rw [Gen.run_bind_of_eq_some admitsRun]
  cases admitted : context.admits template cppType args with
  | false => rfl
  | true =>
      have bound : context.isBound progress.unit cppType = true := by
        simpa [isMissing, admitted] using present
      have later : context.isBound (progress.report events).unit cppType = true := bound
      simp [later]

theorem run_requireInstantiationTo_zero
    (missing : context.isMissing progress.unit (.instantiation template cppType args) = true) :
    (context.requireInstantiationTo 0 template cppType args).run progress = none := by
  obtain ⟨admitted, unbound⟩ := (Bool.and_eq_true _ _).mp missing
  obtain ⟨events, admitsRun⟩ := context.run_admitsInstantiation template cppType args progress
  have later : context.isBound (progress.report events).unit cppType = false :=
    Bool.not_eq_true' _ |>.mp unbound
  unfold requireInstantiationTo
  rw [Gen.run_bind_of_eq_some admitsRun]
  simp [admitted, later]

/-- A missing instantiation is synthesized if the synthesis of its base ends. -/
theorem run_requireInstantiationTo_succ (grounded : context.tree.IsGrounded)
    (missing : context.isMissing progress.unit (.instantiation template cppType args) = true) :
    ∃ events,
      ((context.requireInstantiationTo (depth + 1) template cppType args).run progress).isSome ↔
        ∀ base, context.speller.instantiateBase? template args = some base →
          ((context.bindBase (context.requireInstantiationTo depth) base).run
            ((progress.report events).withUnit (progress.unit.markGenerated cppType))).isSome := by
  obtain ⟨admitted, unbound⟩ := (Bool.and_eq_true _ _).mp missing
  obtain ⟨events, admitsRun⟩ := context.run_admitsInstantiation template cppType args progress
  have later : context.isBound (progress.report events).unit cppType = false :=
    Bool.not_eq_true' _ |>.mp unbound
  have made := synthesize_isTotal grounded template cppType args
  refine ⟨events, ?_⟩
  unfold requireInstantiationTo
  rw [Gen.run_bind_of_eq_some admitsRun, if_neg (by simp [admitted]),
    Gen.run_bind_of_eq_some (Gen.run_unit _), if_neg (Bool.eq_false_iff.mp later)]
  dsimp only
  rw [Gen.run_bind_of_eq_some (Gen.run_change _ _)]
  cases derived : context.speller.instantiateBase? template args with
  | none =>
      have total := Gen.IsTotal.bind (.pure none) fun base => .bind (made base) fun _ =>
        .pure (some cppType)
      exact iff_of_true (total _) fun base same => by cases same
  | some base =>
      have total := fun base => Gen.IsTotal.bind (made base) fun _ => .pure (some cppType)
      refine (Gen.isSome_run_bind_iff total).trans ⟨fun ends other same => ?_, fun ends => ?_⟩
      · cases same
        exact ends
      · exact ends base rfl

theorem run_bindBase_of_present {base : BaseClass}
    (present : context.isMissing progress.unit base = false) :
    ((context.bindBase (context.requireInstantiationTo depth) base).run progress).isSome := by
  cases base with
  | plain cppType decl => exact bindBase_plain_isTotal _ cppType decl progress
  | instantiation template cppType args => exact run_requireInstantiationTo_of_present present

/-- The synthesis of a base ends within a depth if and only if the base settles there. -/
theorem run_bindBase_isSome_iff (grounded : context.tree.IsGrounded) {base : BaseClass} :
    ((context.bindBase (context.requireInstantiationTo depth) base).run progress).isSome ↔
      context.Settles depth progress.unit base := by
  induction depth generalizing base progress with
  | zero =>
      cases missing : context.isMissing progress.unit base with
      | false => exact iff_of_true (run_bindBase_of_present missing) (.idle missing)
      | true =>
          cases base with
          | plain => cases missing
          | instantiation template cppType args =>
              rw [bindBase, run_requireInstantiationTo_zero missing]
              refine iff_of_false Bool.false_ne_true fun settles => ?_
              cases settles with
              | idle present => exact Bool.false_ne_true (present.symm.trans missing)
  | succ depth ih =>
      cases missing : context.isMissing progress.unit base with
      | false => exact iff_of_true (run_bindBase_of_present missing) (.idle missing)
      | true =>
          cases base with
          | plain => cases missing
          | instantiation template cppType args =>
              obtain ⟨events, ends⟩ := run_requireInstantiationTo_succ grounded missing
              refine ends.trans ⟨fun all => .made fun base derived => ?_, fun settles => ?_⟩
              · exact ih.mp (all base derived)
              · cases settles with
                | idle present => exact absurd (present.symm.trans missing) Bool.false_ne_true
                | made further => exact fun base derived => ih.mpr (further base derived)

/-- The synthesis of a base ends if and only if it reaches finitely many spellings. -/
theorem exists_run_bindBase_isSome_iff (grounded : context.tree.IsGrounded) {base : BaseClass} :
    (∃ depth, ((context.bindBase (context.requireInstantiationTo depth) base).run
        progress).isSome) ↔
      (context.reachedTypes progress.unit base).Finite :=
  (exists_congr fun _ => run_bindBase_isSome_iff grounded).trans exists_settles_iff

end UnitContext

end Bindery
