import Bindery.Spelling.Speller

/-!
# Parts of types

The spelling of a type follows its parts for as many steps as the tree has types.  If no type is a
part of itself these steps suffice, and a reference is spelled like what it refers to, with a mark
behind it.
-/

set_option autoImplicit false

namespace Bindery

/-- Whether the spelling of a type goes on with another: the one that it is around, or one in the
signature of the function that it points at. -/
inductive DeclTree.IsPart (tree : DeclTree) (inner outer : TypeId) : Prop
  | pointee (around : (tree.type outer).pointee = some inner)
  | result {pointee : TypeId} {function : CppType}
      (around : (tree.type outer).pointee = some pointee)
      (behind : Speller.functionBehind? tree pointee = some function)
      (gives : function.result = some inner)
  | param {pointee : TypeId} {function : CppType}
      (around : (tree.type outer).pointee = some pointee)
      (behind : Speller.functionBehind? tree pointee = some function)
      (takes : inner ∈ function.params)

/-- Whether the way from a type to its parts comes to an end: each type has a rank, which is lower
for its parts. -/
def DeclTree.HasFiniteTypes (tree : DeclTree) : Prop :=
  ∃ rank : TypeId → Nat, (∀ id, rank id ≤ tree.types.size) ∧
    ∀ inner outer, tree.IsPart inner outer → rank inner < rank outer

namespace Speller

/-- Two spellers spell a type alike that their trees tell the same of, if they spell its parts
alike. -/
theorem spellTo_succ_congr {first second : Speller} {id : TypeId} {depth other : Nat}
    (same : second.tree.type id = first.tree.type id)
    (named : second.spellNamed id = first.spellNamed id)
    (functions : ∀ pointee, (first.tree.type id).pointee = some pointee →
      functionBehind? second.tree pointee = functionBehind? first.tree pointee)
    (inside : ∀ inner, first.tree.IsPart inner id →
      second.spellTo other inner = first.spellTo depth inner) :
    second.spellTo (other + 1) id = first.spellTo (depth + 1) id := by
  rw [spellTo, spellTo, same, named]
  cases around : (first.tree.type id).pointee with
  | none => rfl
  | some pointee =>
      dsimp only
      rw [inside pointee (.pointee around), functions pointee around]
      cases behind : functionBehind? first.tree pointee with
      | none => rfl
      | some function =>
          have params : function.params.map (second.spellTo other) =
              function.params.map (first.spellTo depth) :=
            List.map_congr_left fun inner takes => inside inner (.param around behind takes)
          have result : function.result.map (second.spellTo other) =
              function.result.map (first.spellTo depth) :=
            Option.map_congr fun inner gives => inside inner (.result around behind gives)
          dsimp only
          rw [params, result]

variable {speller : Speller}

theorem spellTo_eq_of_rank_lt {rank : TypeId → Nat}
    (lower : ∀ inner outer, speller.tree.IsPart inner outer → rank inner < rank outer) {id : TypeId}
    {depth other : Nat} (enough : rank id < depth) (alsoEnough : rank id < other) :
    speller.spellTo depth id = speller.spellTo other id := by
  induction depth generalizing id other with
  | zero => omega
  | succ depth ih =>
      obtain ⟨other, rfl⟩ := Nat.exists_eq_add_of_le' (Nat.one_le_of_lt alsoEnough)
      refine spellTo_succ_congr rfl rfl (fun _ _ => rfl) fun inner part => ?_
      have less := lower inner id part
      exact ih (by omega) (by omega)

/-- One step less is enough for the parts of a type. -/
theorem spellTo_size_eq_spell (finite : speller.tree.HasFiniteTypes) {inner outer : TypeId}
    (part : speller.tree.IsPart inner outer) :
    speller.spellTo speller.tree.types.size inner = speller.spell inner := by
  obtain ⟨rank, bounded, lower⟩ := finite
  have less := lower inner outer part
  have within := bounded outer
  exact spellTo_eq_of_rank_lt lower (by omega) (by omega)

/-- What stands behind the spelling of what a reference refers to. -/
def referenceMark (kind : TypeKind) : String :=
  if kind = .lvalueRef then "&" else "&&"

theorem spell_eq_of_reference (finite : speller.tree.HasFiniteTypes) {id pointee : TypeId}
    (isReference : (speller.tree.type id).kind.isReference = true)
    (around : (speller.tree.type id).pointee = some pointee) :
    speller.spell id = speller.spell pointee ++ referenceMark (speller.tree.type id).kind := by
  rw [← spellTo_size_eq_spell finite (.pointee around), spell, spellTo]
  cases kind : (speller.tree.type id).kind with
  | lvalueRef | rvalueRef =>
      dsimp only
      rw [around]
      rfl
  | _ => simp [kind, TypeKind.isReference] at isReference

theorem spell_eq_of_lvalueRef (finite : speller.tree.HasFiniteTypes) {id pointee : TypeId}
    (kind : (speller.tree.type id).kind = .lvalueRef)
    (around : (speller.tree.type id).pointee = some pointee) :
    speller.spell id = speller.spell pointee ++ "&" := by
  rw [spell_eq_of_reference finite (kind ▸ rfl) around, referenceMark, if_pos kind]

/-- A type is spelled like the one behind its references, with their marks behind it. -/
theorem exists_spell_eq_append_marks (finite : speller.tree.HasFiniteTypes) (id : TypeId) :
    ∃ marks : String, (∀ c ∈ marks.toList, c = '&') ∧
      speller.spell id = speller.spell (speller.tree.nonReference id) ++ marks := by
  have steps (depth : Nat) : ∀ id, ∃ marks : String, (∀ c ∈ marks.toList, c = '&') ∧
      speller.spell id = speller.spell (speller.tree.nonReferenceTo depth id) ++ marks := by
    have own (id : TypeId) : ∃ marks : String, (∀ c ∈ marks.toList, c = '&') ∧
        speller.spell id = speller.spell id ++ marks :=
      ⟨"", nofun, String.append_empty.symm⟩
    induction depth with
    | zero => exact own
    | succ depth ih =>
        intro id
        rw [DeclTree.nonReferenceTo]
        split
        case isFalse => exact own id
        case isTrue isReference =>
          cases around : (speller.tree.type id).pointee with
          | none => exact own id
          | some pointee =>
              obtain ⟨marks, all, spelled⟩ := ih pointee
              refine ⟨marks ++ referenceMark (speller.tree.type id).kind, ?_, ?_⟩
              · rw [String.toList_append, referenceMark]
                refine List.forall_mem_append.mpr ⟨all, ?_⟩
                split <;> simp
              · rw [spell_eq_of_reference finite isReference around, spelled, String.append_assoc]
  exact steps _ id

end Speller

end Bindery
