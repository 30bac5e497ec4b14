import Bindery.Proofs.Binding.Agreement
import Bindery.Proofs.Spelling.Enclosure

/-!
# Modules around an inline namespace

An inline namespace has no module, so what is found out of turn is attached to the same module as
before.  Nor does it overload anything.  So generation carries over to the tree with the new
namespace.
-/

set_option autoImplicit false

namespace Bindery

namespace UnitContext

section Scopes

variable {context : UnitContext} {wrapped : DeclTree} {names : List String} {scope : DeclId}
  {group : List DeclId} (encloses : context.tree.EnclosesQuietly wrapped scope group)
include encloses

/-- The new namespace has no module of its own. -/
theorem upon_ensureScopeTo_new (depth : Nat) :
    (context.upon wrapped names).ensureScopeTo (depth + 1) (some context.tree.size) =
      (context.upon wrapped names).ensureScopeTo depth (some scope) := by
  have silent : hasModule (wrapped.decl context.tree.size) = false := by
    rw [hasModule, encloses.isInline.inline]
    rfl
  rw [ensureScopeTo]
  simp only [upon_tree, encloses.isInline.kind, encloses.parent_eq, silent]
  exact bind_pure _

theorem upon_ensureScopeTo {depth more : Nat} {id : DeclId} (old : id ≠ context.tree.size)
    (here : context.tree.rankIn scope id < more) (there : id < depth) :
    (context.upon wrapped names).ensureScopeTo more (some id) =
      context.ensureScopeTo depth (some id) := by
  -- A scope comes before what it holds, also where the way leads through the new namespace.
  induction id using Nat.strong_induction_on generalizing depth more with
  | h id ih =>
      obtain ⟨more, rfl⟩ := Nat.exists_eq_succ_of_ne_zero (Nat.ne_zero_of_lt here)
      obtain ⟨depth, rfl⟩ := Nat.exists_eq_succ_of_ne_zero (Nat.ne_zero_of_lt there)
      have ranked := encloses.isRanked
      have above : ∀ {parent}, wrapped.semanticParent id = some parent →
          context.tree.rankIn scope parent < more := fun inside =>
        (ranked.parent_lt inside).trans_le (Nat.le_of_lt_succ here)
      have around : (context.upon wrapped names).ensureScopeTo more (wrapped.semanticParent id) =
          context.ensureScopeTo depth (context.tree.semanticParent id) := by
        rcases encloses.parents old with same | ⟨moved, new⟩
        · cases inside : context.tree.semanticParent id with
          | none =>
              rw [same, inside]
              cases more <;> cases depth <;> rfl
          | some parent =>
              have before := encloses.grounded.parent_lt inside
              have oldParent := encloses.grounded.ne_size_of_parent inside
              rw [same, inside]
              exact ih parent before oldParent (above (same.trans inside))
                (before.trans_le (Nat.le_of_lt_succ there))
        · have before := encloses.grounded.parent_lt moved
          have oldScope := encloses.grounded.ne_size_of_parent moved
          have rankNew := above new
          have rankScope := ranked.parent_lt encloses.parent_eq
          obtain ⟨more, rfl⟩ := Nat.exists_eq_succ_of_ne_zero (Nat.ne_zero_of_lt rankNew)
          rw [moved, new, upon_ensureScopeTo_new encloses]
          exact ih scope before oldScope (rankScope.trans_le (Nat.le_of_lt_succ rankNew))
            (before.trans_le (Nat.le_of_lt_succ there))
      exact upon_ensureScopeTo_succ encloses.agrees old around

theorem upon_ensureScope {id : DeclId} (stays : context.tree.Stays wrapped id) :
    (context.upon wrapped names).ensureScope (wrapped.semanticParent id) =
      context.ensureScope (context.tree.semanticParent id) := by
  rw [ensureScope, ensureScope, upon_tree, stays]
  cases inside : context.tree.semanticParent id with
  | none => rfl
  | some parent =>
      have before := (encloses.grounded.parent_lt inside).trans
        (DeclTree.lt_size_of_semanticParent inside)
      have grown : context.tree.size < wrapped.size := encloses.size_eq ▸ Nat.lt_succ_self _
      have within := encloses.isRanked.lt_size (before.trans grown)
      exact upon_ensureScopeTo encloses before.ne (Nat.lt_succ_of_lt within)
        (Nat.lt_succ_of_lt before)

end Scopes

theorem carriesOver_of_encloses {context : UnitContext} {wrapped : DeclTree} {scope : DeclId}
    {group : List DeclId} (encloses : context.tree.EnclosesQuietly wrapped scope group) :
    context.CarriesOver wrapped context.overloads context.tree.besides where
  alike := encloses.namesAlike
  overloads := fun old _ _ => by
    rw [overloaded, overloaded, upon_tree, encloses.agrees.qualifiedName_eq old]
    rfl
  scopes := fun _ stays => upon_ensureScope encloses stays

end UnitContext

end Bindery
