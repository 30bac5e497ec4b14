import Bindery.Proofs.Text.NameParts
import Bindery.Proofs.Text.Splicing
import Bindery.Proofs.Text.WholeWord

/-!
# Names in a default value

Each name by which an expression may mean a use is offered as an edit wherever it stands free, and
each such edit makes the text longer.  So a default value stays as it is exactly if none of the
names stands free in it, and whatever none of them touches is copied.
-/

set_option autoImplicit false

namespace Bindery

namespace Chars

/-- Whether a name stands at a place as a word of its own that no `::` precedes. -/
def FreeAt (cs : List Char) (name : String) (place : Nat) : Prop :=
  place ∈ findWord cs name.toList ∧ precededByScope cs place = false

theorem FreeAt.isWordAt {cs : List Char} {name : String} {place : Nat}
    (free : FreeAt cs name place) : name.toList ≠ [] ∧ IsWordAt cs name.toList place :=
  isWordAt_of_mem_findWord free.1

end Chars

namespace NameUse

/-- The names that are written out for a use, the simple one and the partial ones. -/
def names (use : NameUse) : List String :=
  use.simple :: use.partialNames

/-! ## The edits that are offered -/

/-- The edits that are offered for some uses, in their order. -/
def offered (literal : List Char) (uses : List NameUse) : List Edit :=
  (allPartialNames uses).flatMap (fun entry => edits literal entry.1 entry.2) ++
    uses.flatMap fun use => edits literal use.simple use.qualified

theorem toList_qualifyAll (literal : String) (uses : List NameUse) :
    (qualifyAll literal uses).toList =
      (Edits.empty.pushAll (offered literal.toList uses)).1.apply literal.toList :=
  String.toList_ofList

theorem mem_edits_iff {literal : List Char} {name qualified : String} {edit : Edit} :
    edit ∈ edits literal name qualified ↔ ∃ place, Chars.FreeAt literal name place ∧
      edit = ⟨place, place + name.length, qualified.toList⟩ := by
  rw [edits, List.mem_filterMap]
  apply exists_congr
  intro place
  cases behind : Chars.precededByScope literal place with
  | true => simp [Chars.FreeAt, behind]
  | false => simp [Chars.FreeAt, behind, eq_comm]

theorem mem_allPartialNames_iff {uses : List NameUse} {entry : String × String} :
    entry ∈ allPartialNames uses ↔
      ∃ use ∈ uses, entry.1 ∈ use.partialNames ∧ entry.2 = use.qualified := by
  obtain ⟨name, full⟩ := entry
  rw [allPartialNames, List.mem_mergeSort]
  simp [List.mem_flatMap, eq_comm]

theorem mem_offered_iff {literal : List Char} {uses : List NameUse} {edit : Edit} :
    edit ∈ offered literal uses ↔ ∃ use ∈ uses, ∃ name ∈ use.names, ∃ place,
      Chars.FreeAt literal name place ∧
        edit = ⟨place, place + name.length, use.qualified.toList⟩ := by
  rw [offered, List.mem_append, List.mem_flatMap, List.mem_flatMap]
  constructor
  · rintro (⟨entry, isEntry, isEdit⟩ | ⟨use, member, isEdit⟩)
    · obtain ⟨use, member, isPartial, full⟩ := mem_allPartialNames_iff.mp isEntry
      rw [full] at isEdit
      exact ⟨use, member, entry.1, List.mem_cons_of_mem _ isPartial, mem_edits_iff.mp isEdit⟩
    · exact ⟨use, member, use.simple, List.mem_cons_self, mem_edits_iff.mp isEdit⟩
  · rintro ⟨use, member, name, isName, stands⟩
    have isEdit := mem_edits_iff.mpr stands
    rcases List.mem_cons.mp isName with rfl | isPartial
    · exact .inr ⟨use, member, isEdit⟩
    · exact .inl ⟨(name, use.qualified),
        mem_allPartialNames_iff.mpr ⟨use, member, isPartial, rfl⟩, isEdit⟩

theorem isWithin_of_mem_offered {literal : List Char} {uses : List NameUse} {edit : Edit}
    (isOffered : edit ∈ offered literal uses) : edit.IsWithin literal := by
  obtain ⟨use, -, name, -, place, free, rfl⟩ := mem_offered_iff.mp isOffered
  obtain ⟨nonempty, front, back, rfl, rfl, -, -⟩ := free.isWordAt
  have size := List.length_pos_iff.mpr nonempty
  rw [String.length_toList] at size
  constructor
  · dsimp only
    omega
  · simp [← String.length_toList]

/-! ## What stays -/

/-- A text stays as it is exactly if none of the names stands free in it. -/
theorem qualifyAll_eq_self_iff {literal : String} {uses : List NameUse}
    (shorter : ∀ use ∈ uses, use.simple.length < use.qualified.length) :
    qualifyAll literal uses = literal ↔
      ∀ use ∈ uses, ∀ name ∈ use.names, ∀ place, ¬ Chars.FreeAt literal.toList name place := by
  have longer : ∀ edit ∈ offered literal.toList uses,
      edit.stop - edit.start < edit.text.length := by
    intro edit isOffered
    obtain ⟨use, member, name, isName, place, -, rfl⟩ := mem_offered_iff.mp isOffered
    rw [Nat.add_sub_cancel_left, String.length_toList]
    rcases List.mem_cons.mp isName with rfl | isPartial
    · exact shorter use member
    · exact length_lt_of_mem_partialNames isPartial
  have unchanged := Edits.apply_pushAll_eq_self_iff
    (fun edit isOffered => isWithin_of_mem_offered isOffered) longer
  rw [← String.toList_inj, toList_qualifyAll, unchanged, List.eq_nil_iff_forall_not_mem]
  constructor
  · intro none use member name isName place free
    exact none _ (mem_offered_iff.mpr ⟨use, member, name, isName, place, free, rfl⟩)
  · intro absent edit isOffered
    obtain ⟨use, member, name, isName, place, free, -⟩ := mem_offered_iff.mp isOffered
    exact absent use member name isName place free

/-- Texts that none of the names touches where it stands free are all kept, in their order. -/
theorem hasInOrder_qualifyAll {literal : String} {uses : List NameUse}
    {entries : List (Nat × List Char)} (holds : Chars.HoldsFrom literal.toList 0 entries)
    (clear : ∀ use ∈ uses, ∀ name ∈ use.names, ∀ place, Chars.FreeAt literal.toList name place →
      ∀ entry ∈ entries, place + name.length ≤ entry.1 ∨ entry.1 + entry.2.length ≤ place) :
    Chars.HasInOrder (entries.map (·.2)) (qualifyAll literal uses).toList := by
  have within : ∀ edit ∈ offered literal.toList uses, edit.IsWithin literal.toList :=
    fun edit isOffered => isWithin_of_mem_offered isOffered
  obtain ⟨carried, carries, applied⟩ := Edits.exists_carries within
  rw [toList_qualifyAll, applied]
  apply carries.fits.hasInOrder holds
  intro edit isCarried entry isEntry
  obtain ⟨use, member, name, isName, place, free, rfl⟩ :=
    mem_offered_iff.mp (carries.among edit isCarried)
  exact clear use member name isName place free entry isEntry

end NameUse

end Bindery
