import Bindery.Proofs.Text.Splicing

/-!
# Insertions

An edit of an empty range inserts its text and replaces nothing.  It overlaps no edit that begins or
ends at its place, so it is accepted there.  Edits that begin at one place are carried out in the
order in which they were accepted: an insertion that came before a replacement is written in front
of it, but behind the replacement the cursor has passed the place of the insertion, and then there
is no result.
-/

set_option autoImplicit false

namespace Bindery

namespace Edit

/-- An edit whose range lies in the source.  An empty range inserts. -/
structure IsRange (source : List Char) (edit : Edit) : Prop where
  ordered : edit.start ≤ edit.stop
  inside : edit.stop ≤ source.length

instance (source : List Char) (edit : Edit) : Decidable (edit.IsRange source) :=
  decidable_of_iff (edit.start ≤ edit.stop ∧ edit.stop ≤ source.length)
    ⟨fun ⟨ordered, inside⟩ => ⟨ordered, inside⟩, fun ⟨ordered, inside⟩ => ⟨ordered, inside⟩⟩

/-- An edit inserts where another one begins to replace. -/
structure InsertsAtStartOf (insertion edit : Edit) : Prop where
  inserts : insertion.stop = insertion.start
  same : insertion.start = edit.start
  replaces : edit.start < edit.stop

/-- Of two edits that keep off each other, the one that starts first ends before the other one
begins, unless the other one inserts at its start. -/
theorem stop_le_start_iff {a b : Edit} (ordered : b.start ≤ b.stop) (first : a.start ≤ b.start)
    (apart : a.overlaps b = false) : a.stop ≤ b.start ↔ ¬ b.InsertsAtStartOf a := by
  constructor
  · rintro onward ⟨inserts, same, replaces⟩
    omega
  · intro free
    rcases before_or_behind apart with before | behind
    · -- Both start where `b` ends, so that `b` is empty.
      refine Nat.le_of_not_lt fun beyond => free ⟨?_, ?_, ?_⟩ <;> omega
    · exact behind

end Edit

namespace Edits

/-! ## The cursor -/

/-- Edits of which none starts before the cursor, which each of them moves to its end. -/
def StepsForward : Nat → List Edit → Prop
  | _, [] => True
  | cursor, edit :: later => cursor ≤ edit.start ∧ StepsForward edit.stop later

instance decidableStepsForward : ∀ cursor edits, Decidable (StepsForward cursor edits)
  | _, [] => inferInstanceAs (Decidable True)
  | cursor, edit :: later =>
      haveI := decidableStepsForward edit.stop later
      inferInstanceAs (Decidable (cursor ≤ edit.start ∧ StepsForward edit.stop later))

variable {source : List Char}

theorem isSome_applyFrom_iff {cursor : Nat} {edits : List Edit}
    (ranges : ∀ edit ∈ edits, edit.IsRange source) (inside : cursor ≤ source.length) :
    (applyFrom source cursor edits).isSome ↔ StepsForward cursor edits := by
  induction edits generalizing cursor with
  | nil => simp [applyFrom, StepsForward, inside]
  | cons edit later ih =>
      obtain ⟨here, rangesLater⟩ := List.forall_mem_cons.mp ranges
      have within : edit.start ≤ source.length := Nat.le_trans here.ordered here.inside
      rw [applyFrom, StepsForward, ← ih rangesLater here.inside]
      by_cases ahead : cursor ≤ edit.start
      · rw [if_pos ⟨ahead, within⟩, Option.isSome_map]
        exact (and_iff_right ahead).symm
      · rw [if_neg fun both => ahead both.1]
        simp [ahead]

theorem stepsForward_iff {cursor : Nat} {edits : List Edit}
    (ordered : ∀ edit ∈ edits, edit.start ≤ edit.stop) :
    StepsForward cursor edits ↔
      (∀ edit ∈ edits, cursor ≤ edit.start) ∧ edits.Pairwise fun a b => a.stop ≤ b.start := by
  induction edits generalizing cursor with
  | nil => simp [StepsForward]
  | cons edit later ih =>
      obtain ⟨here, orderedLater⟩ := List.forall_mem_cons.mp ordered
      rw [StepsForward, ih orderedLater, List.forall_mem_cons, List.pairwise_cons]
      constructor
      · rintro ⟨ahead, behind, rest⟩
        refine ⟨⟨ahead, fun other member => ?_⟩, behind, rest⟩
        exact Nat.le_trans ahead (Nat.le_trans here (behind other member))
      · rintro ⟨⟨ahead, -⟩, behind, rest⟩
        exact ⟨ahead, behind, rest⟩

/-! ## Edits that start at one place -/

/-- Edits of one start keep the order in which they were accepted. -/
theorem filter_sorted (edits : Edits) (place : Nat) :
    edits.sorted.filter (·.start == place) = edits.toList.filter (·.start == place) := by
  have ordered : (edits.toList.filter (·.start == place)).Pairwise fun a b =>
      decide (a.start ≤ b.start) = true := by
    refine List.pairwise_of_forall_mem_list fun a first b second => ?_
    have here : a.start = place := eq_of_beq (List.mem_filter.mp first).2
    have there : b.start = place := eq_of_beq (List.mem_filter.mp second).2
    exact decide_eq_true (Nat.le_of_eq (here.trans there.symm))
  have kept : (edits.toList.filter (·.start == place)).Sublist edits.sorted :=
    List.sublist_mergeSort start_le_trans start_le_total ordered List.filter_sublist
  have among := kept.filter (·.start == place)
  rw [List.filter_filter] at among
  simp only [Bool.and_self] at among
  have size := (edits.perm_sorted.filter (·.start == place)).length_eq
  exact (among.eq_of_length size.symm).symm

theorem pair_sublist_sorted_iff (edits : Edits) {a b : Edit} (same : a.start = b.start) :
    [a, b].Sublist edits.sorted ↔ [a, b].Sublist edits.toList := by
  have both : [a, b].filter (·.start == a.start) = [a, b] := by simp [same]
  have alone (all : List Edit) :
      [a, b].Sublist all ↔ [a, b].Sublist (all.filter (·.start == a.start)) :=
    ⟨fun pair => both ▸ pair.filter (·.start == a.start), fun pair => pair.trans List.filter_sublist⟩
  rw [alone, filter_sorted, ← alone]

/-- No edit inserts at the start of an edit that came before it. -/
def InsertsFirst (edits : List Edit) : Prop :=
  edits.Pairwise fun a b => ¬ b.InsertsAtStartOf a

theorem insertsFirst_sorted_iff (edits : Edits) :
    InsertsFirst edits.sorted ↔ InsertsFirst edits.toList := by
  simp only [InsertsFirst, List.pairwise_iff_forall_sublist]
  constructor
  · intro free a b pair late
    exact free ((edits.pair_sublist_sorted_iff late.same.symm).mpr pair) late
  · intro free a b pair late
    exact free ((edits.pair_sublist_sorted_iff late.same.symm).mp pair) late

/-- The cursor moves forward exactly if insertions came before what is replaced at their place. -/
theorem stepsForward_sorted_iff {edits : Edits}
    (ordered : ∀ edit ∈ edits.toList, edit.start ≤ edit.stop) (apart : AreApart edits.toList) :
    StepsForward 0 edits.sorted ↔ InsertsFirst edits.toList := by
  have orderedSorted : ∀ edit ∈ edits.sorted, edit.start ≤ edit.stop :=
    fun edit member => ordered edit (List.mem_mergeSort.mp member)
  have apartSorted : AreApart edits.sorted := apart.perm edits.perm_sorted.symm
  have both := edits.pairwise_sorted.and apartSorted
  have start : ∀ edit ∈ edits.sorted, 0 ≤ edit.start := fun edit _ => Nat.zero_le edit.start
  rw [stepsForward_iff orderedSorted, and_iff_right start, ← insertsFirst_sorted_iff]
  constructor
  · intro onward
    refine (both.and onward).imp_of_mem fun {a b} _ second holds => ?_
    exact (Edit.stop_le_start_iff (orderedSorted b second) holds.1.1 holds.1.2).mp holds.2
  · intro free
    refine (both.and free).imp_of_mem fun {a b} _ second holds => ?_
    exact (Edit.stop_le_start_iff (orderedSorted b second) holds.1.1 holds.1.2).mpr holds.2

/-! ## Offering insertions -/

/-- An insertion at the start of an accepted edit is accepted. -/
theorem overlaps_eq_false_of_insertsAtStartOf {edits : List Edit} (apart : AreApart edits)
    {insertion edit : Edit} (member : edit ∈ edits) (late : insertion.InsertsAtStartOf edit) :
    ∀ other ∈ edits, insertion.overlaps other = false := by
  obtain ⟨inserts, same, replaces⟩ := late
  intro other isOther
  refine Bool.eq_false_iff.mpr fun met => ?_
  simp only [Edit.overlaps, Bool.and_eq_true, decide_eq_true_eq] at met
  -- The other edit goes over the place, so that it would meet the edit that starts there.
  have differ : edit ≠ other := by
    rintro rfl
    omega
  have free := Edit.before_or_behind (apart.overlaps_eq_false member isOther differ)
  omega

theorem insertsFirst_push_iff {edits : Edits} (apart : AreApart edits.toList) (edit : Edit) :
    InsertsFirst (edits.push edit).toList ↔
      InsertsFirst edits.toList ∧ ∀ other ∈ edits.toList, ¬ edit.InsertsAtStartOf other := by
  rcases edits.push_cases edit with ⟨pushed, -⟩ | ⟨refused, other, member, met⟩
  · rw [pushed]
    simp [InsertsFirst, List.pairwise_append]
  · rw [refused]
    refine ⟨fun first => ⟨first, fun present isPresent late => ?_⟩, And.left⟩
    have free := overlaps_eq_false_of_insertsAtStartOf apart isPresent late other member
    rw [met] at free
    cases free

/-- Whether an insertion is offered when an edit that replaces something from its place on has been
accepted already. -/
def OffersLate (edits : Edits) (offered : List Edit) : Prop :=
  ∃ before insertion after, offered = before ++ insertion :: after ∧
    ∃ edit ∈ (edits.pushAll before).1.toList, insertion.InsertsAtStartOf edit

theorem offersLate_cons_iff {edits : Edits} {edit : Edit} {later : List Edit} :
    OffersLate edits (edit :: later) ↔
      (∃ other ∈ edits.toList, edit.InsertsAtStartOf other) ∨
        OffersLate (edits.push edit) later := by
  constructor
  · rintro ⟨before, insertion, after, split, other, member, late⟩
    cases before with
    | nil =>
        obtain ⟨rfl, -⟩ := List.cons.inj split
        exact .inl ⟨other, member, late⟩
    | cons first before =>
        obtain ⟨rfl, rest⟩ := List.cons.inj split
        exact .inr ⟨before, insertion, after, rest, other, member, late⟩
  · rintro (⟨other, member, late⟩ | ⟨before, insertion, after, rfl, other, member, late⟩)
    · exact ⟨[], edit, later, rfl, other, member, late⟩
    · exact ⟨edit :: before, insertion, after, rfl, other, member, late⟩

theorem insertsFirst_pushAll_iff {edits : Edits} (apart : AreApart edits.toList)
    (offered : List Edit) :
    InsertsFirst (edits.pushAll offered).1.toList ↔
      InsertsFirst edits.toList ∧ ¬ OffersLate edits offered := by
  induction offered generalizing edits with
  | nil =>
      have nothing : ¬ OffersLate edits [] := by
        rintro ⟨before, insertion, after, split, -⟩
        simp at split
      exact (and_iff_left nothing).symm
  | cons edit later ih =>
      rw [pushAll_cons, ih (areApart_push apart edit), insertsFirst_push_iff apart,
        offersLate_cons_iff, not_or, and_assoc]
      simp only [not_exists, not_and]

/-- Edits whose ranges lie in the source are carried out with the cursor moving forward, and so with
a result, if and only if no insertion is offered at the start of an edit that replaces something and
has been accepted already. -/
theorem cursor_steps_forward_iff {offered : List Edit}
    (ranges : ∀ edit ∈ offered, edit.IsRange source) :
    (StepsForward 0 (empty.pushAll offered).1.sorted ↔ ¬ OffersLate empty offered) ∧
      (((empty.pushAll offered).1.splice? source).isSome ↔ ¬ OffersLate empty offered) := by
  have rangesAll : ∀ edit ∈ (empty.pushAll offered).1.toList, edit.IsRange source := by
    intro edit member
    exact ranges edit ((mem_or_mem_of_mem_pushAll member).resolve_left nofun)
  have apart : AreApart (empty.pushAll offered).1.toList :=
    areApart_pushAll List.Pairwise.nil offered
  have forward : StepsForward 0 (empty.pushAll offered).1.sorted ↔ ¬ OffersLate empty offered := by
    rw [stepsForward_sorted_iff (fun edit member => (rangesAll edit member).ordered) apart]
    exact (insertsFirst_pushAll_iff List.Pairwise.nil offered).trans
      (and_iff_right List.Pairwise.nil)
  refine ⟨forward, ?_⟩
  rw [← forward]
  exact isSome_applyFrom_iff (fun edit member => rangesAll edit (List.mem_mergeSort.mp member))
    (Nat.zero_le _)

/-- Insertions at both borders of a replacement, two of them at its start. -/
def borderEdits : List Edit :=
  [⟨0, 0, "::".toList⟩, ⟨0, 0, "cv::".toList⟩, ⟨0, 5, "Span".toList⟩, ⟨5, 5, "2".toList⟩,
    ⟨12, 12, ";".toList⟩]

theorem border_insertions_step_forward :
    (∀ edit ∈ borderEdits, edit.IsRange "Range::all()".toList) ∧
      ¬ OffersLate empty borderEdits ∧
      ((empty.pushAll borderEdits).1.splice? "Range::all()".toList).isSome ∧
      (empty.pushAll borderEdits).1.apply "Range::all()".toList =
        "::cv::Span2::all();".toList := by
  have ranges : ∀ edit ∈ borderEdits, edit.IsRange "Range::all()".toList := by decide +kernel
  have accepted : (empty.pushAll borderEdits).1.toList = borderEdits := by decide +kernel
  have starts : borderEdits.Pairwise fun a b => a.start ≤ b.start := by decide
  obtain ⟨forward, carried⟩ := cursor_steps_forward_iff ranges
  rw [sorted_eq_of_pairwise accepted starts] at forward
  have timely : ¬ OffersLate empty borderEdits := forward.mp (by decide)
  refine ⟨ranges, timely, carried.mpr timely, ?_⟩
  rw [apply_of_pairwise _ accepted starts]
  decide +kernel

/-- A replacement and an insertion at its start. -/
def lateEdits : List Edit :=
  [⟨0, 5, "Span".toList⟩, ⟨0, 0, "cv::".toList⟩]

/-- The insertion is accepted, but the cursor has passed its place.  The other way round the same
edits are carried out. -/
theorem late_insertion_steps_back :
    (∀ edit ∈ lateEdits, edit.IsRange "Range::all()".toList) ∧
      (empty.pushAll lateEdits).2 = [true, true] ∧
      ¬ StepsForward 0 (empty.pushAll lateEdits).1.sorted ∧
      (empty.pushAll lateEdits).1.splice? "Range::all()".toList = none ∧
      (empty.pushAll lateEdits.reverse).1.splice? "Range::all()".toList =
        some "cv::Span::all()".toList := by
  have late : (empty.pushAll lateEdits).1.sorted = lateEdits :=
    sorted_eq_of_pairwise (by decide +kernel) (by decide)
  have timely : (empty.pushAll lateEdits.reverse).1.sorted = lateEdits.reverse :=
    sorted_eq_of_pairwise (by decide +kernel) (by decide)
  rw [splice?, splice?, late, timely]
  decide +kernel

end Edits

end Bindery
