/-!
# Positions

What holds of a list at each position, given what stands before it and what stands behind it.
-/

set_option autoImplicit false

namespace Bindery

variable {α : Type}

/-- A relation between an entry of a list, what stands before it and what stands behind it holds at
each position. -/
def Everywhere (holds : List α → α → List α → Prop) (entries : List α) : Prop :=
  ∀ earlier entry later, entries = earlier ++ entry :: later → holds earlier entry later

namespace Everywhere

variable {holds : List α → α → List α → Prop}

theorem nil : Everywhere holds [] := by
  intro earlier entry later parts
  simp at parts

theorem singleton {entry : α} (here : holds [] entry []) : Everywhere holds [entry] := by
  intro earlier other later parts
  cases earlier with
  | nil =>
      obtain ⟨rfl, rfl⟩ := List.cons.inj parts
      exact here
  | cons first rest => simp at parts

theorem append {left right : List α}
    (inLeft : Everywhere (fun earlier entry later => holds earlier entry (later ++ right)) left)
    (inRight : Everywhere (fun earlier entry later => holds (left ++ earlier) entry later) right) :
    Everywhere holds (left ++ right) := by
  intro earlier entry later parts
  rcases List.append_eq_append_iff.mp parts with ⟨middle, rfl, inside⟩ | ⟨middle, rfl, inside⟩
  · exact inRight middle entry later inside
  · cases middle with
    | nil =>
        rw [List.append_nil] at inRight
        simpa using inRight [] entry later inside.symm
    | cons first rest =>
        obtain ⟨rfl, rfl⟩ := List.cons.inj inside
        exact inLeft earlier entry rest rfl

theorem left {left right : List α} (everywhere : Everywhere holds (left ++ right)) :
    Everywhere (fun earlier entry later => holds earlier entry (later ++ right)) left := by
  intro earlier entry later parts
  exact everywhere earlier entry (later ++ right) (by simp [parts])

theorem right {left right : List α} (everywhere : Everywhere holds (left ++ right)) :
    Everywhere (fun earlier entry later => holds (left ++ earlier) entry later) right := by
  intro earlier entry later parts
  exact everywhere (left ++ earlier) entry later (by simp [parts])

theorem imp {other : List α → α → List α → Prop} {entries : List α}
    (everywhere : Everywhere holds entries)
    (implies : ∀ earlier entry later, entry ∈ entries → holds earlier entry later →
      other earlier entry later) : Everywhere other entries := by
  intro earlier entry later parts
  have member : entry ∈ entries := by simp [parts]
  exact implies earlier entry later member (everywhere earlier entry later parts)

end Everywhere

theorem pairwise_iff_everywhere {relation : α → α → Prop} {entries : List α} :
    entries.Pairwise relation ↔
      Everywhere (fun earlier entry _ => ∀ other ∈ earlier, relation other entry) entries := by
  constructor
  · rintro pairwise earlier entry later rfl other member
    obtain ⟨-, -, across⟩ := List.pairwise_append.mp pairwise
    exact across other member entry List.mem_cons_self
  · intro everywhere
    induction entries with
    | nil => exact .nil
    | cons first rest ih =>
        refine .cons (fun entry member => ?_) (ih fun earlier entry later parts other behind => ?_)
        · obtain ⟨earlier, later, rfl⟩ := List.append_of_mem member
          exact everywhere (first :: earlier) entry later rfl first List.mem_cons_self
        · exact everywhere (first :: earlier) entry later (parts ▸ rfl) other
            (List.mem_cons_of_mem _ behind)

end Bindery
