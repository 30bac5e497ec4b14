import Bindery.Proofs.Spelling.Agreement
import Bindery.Proofs.Tree.Enclosure

/-!
# Names around an inline namespace

When some declarations of a namespace are put in an inline namespace the registries stay the same,
and so do default values, as long as no default names a constant of an enum that is moved.
-/

set_option autoImplicit false

namespace Bindery

namespace DeclTree

section

variable {tree wrapped : DeclTree} {scope : DeclId} {group : List DeclId}

theorem Encloses.ids_eq (encloses : tree.Encloses wrapped scope group) :
    wrapped.ids = tree.ids ++ [tree.size] := by
  rw [ids, encloses.size_eq, List.range_succ]
  rfl

theorem ne_size_of_mem_ids {id : DeclId} (member : id ∈ tree.ids) : id ≠ tree.size :=
  (List.mem_range.mp member).ne

theorem Encloses.registries_eq (encloses : tree.Encloses wrapped scope group) :
    TypeRegistries.ofTree wrapped = TypeRegistries.ofTree tree := by
  refine encloses.agrees.registries_eq encloses.ids_eq (fun _ => ne_size_of_mem_ids) ?_
  refine List.forall_mem_singleton.mpr ?_
  simp [TypeRegistries.namesType, TypeRegistries.isPlainTypedef, encloses.isInline.kind]

/-- Besides the new namespace names are told alike. -/
theorem EnclosesQuietly.namesAlike (encloses : tree.EnclosesQuietly wrapped scope group) :
    tree.NamesAlike wrapped tree.besides where
  toAgrees := encloses.agrees
  unnamed := fun _ => encloses.unnamed
  referred := encloses.referred
  uses := fun member => by
    refine encloses.filterMap_descendants_eq (fun _ _ => rfl) ?_
      (encloses.grounded.ne_size_of_child member)
    unfold nameUse?
    dsimp only
    rw [encloses.isInline.kind]
    rfl

end

end DeclTree

end Bindery
