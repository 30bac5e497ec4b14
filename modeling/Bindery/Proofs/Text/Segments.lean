import Bindery.Proofs.Text.Splicing

/-!
# Segments

Edits that are carried out cut the source into segments, of which each is kept or replaced, and the
replaced ones are the accepted edits.  Nothing in this says in which order the edits came, and there
is one result only that it allows.
-/

set_option autoImplicit false

namespace Bindery

namespace Edit

/-- Whether an edit replaces the character at a place. -/
def Covers (edit : Edit) (place : Nat) : Prop :=
  edit.start ≤ place ∧ place < edit.stop

/-- Whether two edits replace a character in common. -/
def Meets (a b : Edit) : Prop :=
  ∃ place, a.Covers place ∧ b.Covers place

theorem overlaps_iff_meets {a b : Edit} (forward : a.start < a.stop)
    (otherForward : b.start < b.stop) : a.overlaps b = true ↔ a.Meets b := by
  simp only [overlaps, Bool.and_eq_true, decide_eq_true_eq]
  constructor
  · intro both
    refine ⟨max a.start b.start, ⟨?_, ?_⟩, ?_, ?_⟩ <;> omega
  · rintro ⟨place, ⟨behind, before⟩, otherBehind, otherBefore⟩
    omega

end Edit

/-! ## Cutting a source -/

/-- A part of a source, kept or replaced by another text. -/
inductive Segment where
  | kept (text : List Char)
  | replaced (old new : List Char)

namespace Segment

/-- What a segment takes from the source. -/
def source : Segment → List Char
  | kept text => text
  | replaced old _ => old

/-- What a segment adds to the result. -/
def written : Segment → List Char
  | kept text => text
  | replaced _ new => new

/-- The replacements in segments that stand from a place on. -/
def edits (place : Nat) : List Segment → List Edit
  | [] => []
  | kept text :: later => edits (place + text.length) later
  | replaced old new :: later =>
      ⟨place, place + old.length, new⟩ :: edits (place + old.length) later

theorem le_start {place : Nat} {segments : List Segment} :
    ∀ edit ∈ edits place segments, place ≤ edit.start := by
  induction segments generalizing place with
  | nil => nofun
  | cons segment later ih =>
      intro edit member
      cases segment with
      | kept text =>
          have onward := ih edit member
          omega
      | replaced old new =>
          rcases List.mem_cons.mp member with rfl | behind
          · exact Nat.le_refl place
          · have onward := ih edit behind
            omega

theorem pairwise_edits (place : Nat) (segments : List Segment) :
    (edits place segments).Pairwise fun a b => a.start ≤ b.start := by
  induction segments generalizing place with
  | nil => exact .nil
  | cons segment later ih =>
      cases segment with
      | kept text => exact ih (place + text.length)
      | replaced old new =>
          refine .cons (fun edit behind => ?_) (ih (place + old.length))
          exact Nat.le_trans (Nat.le_add_right place old.length) (le_start edit behind)

/-- The edits of segments behind `front` copy the rest of `front` and then write the segments. -/
theorem spliceFrom_edits (segments : List Segment) (front : List Char) :
    ∀ cursor ≤ front.length,
      Edits.spliceFrom (front ++ segments.flatMap source) cursor (edits front.length segments) =
        front.drop cursor ++ segments.flatMap written := by
  induction segments generalizing front with
  | nil =>
      intro cursor within
      simp [edits, Edits.spliceFrom]
  | cons segment later ih =>
      intro cursor within
      cases segment with
      | kept text =>
          have behind := ih (front ++ text) cursor (by rw [List.length_append]; omega)
          rw [List.length_append, List.drop_append_of_le_length within] at behind
          simpa [edits, source, written] using behind
      | replaced old new =>
          -- The edit takes the cursor behind the old text, so that nothing of it is copied.
          have behind := ih (front ++ old) (front ++ old).length (Nat.le_refl _)
          rw [List.drop_length, List.nil_append, List.append_assoc, List.length_append] at behind
          rw [edits, Edits.spliceFrom, List.flatMap_cons, List.flatMap_cons, source, written,
            behind, List.take_left, List.append_assoc]

end Segment

/-- The source can be cut into segments of which the replaced ones are the edits, each at its place,
and the result is written by them. -/
def IsSpliceOf (source : List Char) (edits : List Edit) (result : List Char) : Prop :=
  ∃ segments : List Segment, segments.flatMap Segment.source = source ∧
    segments.flatMap Segment.written = result ∧ (Segment.edits 0 segments).Perm edits

theorem IsSpliceOf.perm {source result : List Char} {edits others : List Edit}
    (splice : IsSpliceOf source edits result) (same : edits.Perm others) :
    IsSpliceOf source others result := by
  obtain ⟨segments, taken, written, perm⟩ := splice
  exact ⟨segments, taken, written, perm.trans same⟩

namespace Edits

variable {source : List Char}

theorem FitsFrom.exists_segments {cursor : Nat} {edits : List Edit}
    (fits : FitsFrom source cursor edits) :
    ∃ segments : List Segment, segments.flatMap Segment.source = source.drop cursor ∧
      segments.flatMap Segment.written = spliceFrom source cursor edits ∧
      Segment.edits cursor segments = edits := by
  induction edits generalizing cursor with
  | nil =>
      exact ⟨[.kept (source.drop cursor)], by simp [Segment.source],
        by simp [Segment.written, spliceFrom], rfl⟩
  | cons edit later ih =>
      obtain ⟨ahead, forward, behind⟩ := fits
      obtain ⟨segments, taken, written, same⟩ := ih behind
      have inside := behind.le_length
      refine ⟨.kept ((source.take edit.start).drop cursor) ::
        .replaced ((source.take edit.stop).drop edit.start) edit.text :: segments, ?_, ?_, ?_⟩
      · have between : (source.take edit.start).drop cursor ++
            (source.take edit.stop).drop edit.start = (source.take edit.stop).drop cursor :=
          Chars.stretch_append ahead (Nat.le_of_lt forward) (by omega)
        have whole := Chars.stretch_append (Nat.le_trans ahead (Nat.le_of_lt forward)) inside inside
        rw [List.take_length, ← between, List.append_assoc] at whole
        simpa [Segment.source, taken] using whole
      · simp [Segment.written, spliceFrom, written]
      · have kept : cursor + ((source.take edit.start).drop cursor).length = edit.start := by
          rw [List.length_drop, List.length_take]
          omega
        have replaced :
            edit.start + ((source.take edit.stop).drop edit.start).length = edit.stop := by
          rw [List.length_drop, List.length_take]
          omega
        rw [Segment.edits, Segment.edits, kept, replaced, same]

theorem eq_of_start_eq {edits : List Edit} (within : ∀ edit ∈ edits, edit.IsWithin source)
    (apart : AreApart edits) {a b : Edit} (first : a ∈ edits) (second : b ∈ edits)
    (same : a.start = b.start) : a = b := by
  refine Decidable.byContradiction fun differ => ?_
  have free := apart.overlaps_eq_false first second differ
  have forward := (within a first).forward
  have otherForward := (within b second).forward
  rcases Edit.before_or_behind free with before | behind <;> omega

theorem splice?_eq_some {edits : Edits} (within : ∀ edit ∈ edits.toList, edit.IsWithin source)
    (apart : AreApart edits.toList) :
    edits.splice? source = some (spliceFrom source 0 edits.sorted) :=
  (fitsFrom_sorted within apart).applyFrom_eq

/-- Edits that are apart are carried out, with the one result that cutting the source allows. -/
theorem splice?_eq_some_iff {edits : Edits} (within : ∀ edit ∈ edits.toList, edit.IsWithin source)
    (apart : AreApart edits.toList) {result : List Char} :
    edits.splice? source = some result ↔ IsSpliceOf source edits.toList result := by
  rw [splice?_eq_some within apart, Option.some.injEq]
  constructor
  · rintro rfl
    obtain ⟨segments, taken, written, same⟩ := (fitsFrom_sorted within apart).exists_segments
    refine ⟨segments, taken, written, ?_⟩
    rw [same]
    exact edits.perm_sorted
  · rintro ⟨segments, rfl, rfl, perm⟩
    have same : Segment.edits 0 segments = edits.sorted := by
      refine List.Perm.eq_of_pairwise ?_ (Segment.pairwise_edits 0 segments) edits.pairwise_sorted
        (perm.trans edits.perm_sorted.symm)
      intro a b first second before behind
      exact eq_of_start_eq within apart (perm.subset first) (List.mem_mergeSort.mp second)
        (Nat.le_antisymm before behind)
    have spliced := Segment.spliceFrom_edits segments [] 0 (Nat.le_refl 0)
    rw [List.length_nil, same] at spliced
    simpa using spliced

/-! ## Answers -/

/-- The offered edits that were answered with yes. -/
def accepted (offered : List Edit) (answers : List Bool) : List Edit :=
  ((offered.zip answers).filter (·.2)).map (·.1)

theorem mem_accepted_iff {offered : List Edit} {answers : List Bool} {edit : Edit} :
    edit ∈ accepted offered answers ↔
      ∃ i : Nat, offered[i]? = some edit ∧ answers[i]? = some true := by
  have pair : edit ∈ accepted offered answers ↔ (edit, true) ∈ offered.zip answers := by
    simp [accepted]
  rw [pair, List.mem_iff_getElem?]
  simp only [List.getElem?_zip_eq_some]

theorem toList_pushAll (edits : Edits) (later : List Edit) :
    (edits.pushAll later).1.toList = edits.toList ++ accepted later (edits.pushAll later).2 := by
  induction later generalizing edits with
  | nil => simp [pushAll, accepted]
  | cons edit later ih =>
      have answered : (edits.pushAll (edit :: later)).2 =
          (edits.push? edit).isSome :: ((edits.push edit).pushAll later).2 := rfl
      rw [pushAll_cons, ih, answered, push, accepted, accepted, List.zip_cons_cons,
        List.filter_cons]
      cases met : edits.toList.any edit.overlaps <;> simp [push?, met]

theorem length_answers (edits : Edits) (later : List Edit) :
    (edits.pushAll later).2.length = later.length := by
  induction later generalizing edits with
  | nil => rfl
  | cons edit later ih => simp [pushAll, ih]

theorem answers_append (edits : Edits) (first later : List Edit) :
    (edits.pushAll (first ++ later)).2 =
      (edits.pushAll first).2 ++ ((edits.pushAll first).1.pushAll later).2 := by
  induction first generalizing edits with
  | nil => rfl
  | cons edit first ih => simp [pushAll, ih]

/-- An edit is answered by what was accepted before it. -/
theorem answer_eq (edits : Edits) (before : List Edit) (edit : Edit) (after : List Edit) :
    (edits.pushAll (before ++ edit :: after)).2[before.length]? =
      some ((edits.pushAll before).1.push? edit).isSome := by
  rw [answers_append, ← length_answers edits before, List.getElem?_append_right (Nat.le_refl _),
    Nat.sub_self]
  rfl

/-- What is offered later changes no earlier answer. -/
theorem earlier_answer_eq (edits : Edits) (before later : List Edit) {j : Nat}
    (bound : j < before.length) :
    (edits.pushAll (before ++ later)).2[j]? = (edits.pushAll before).2[j]? := by
  rw [answers_append, List.getElem?_append_left]
  rwa [length_answers]

theorem push?_eq_none_iff {edits : Edits} {edit : Edit} :
    edits.push? edit = none ↔ ∃ other ∈ edits.toList, edit.overlaps other = true := by
  simp [push?]

/-- An offered edit is refused exactly if it meets one that was accepted before it. -/
theorem answer_eq_false_iff {source : List Char} {offered : List Edit}
    (within : ∀ edit ∈ offered, edit.IsWithin source) {i : Nat} {edit : Edit}
    (isOffered : offered[i]? = some edit) :
    (empty.pushAll offered).2[i]? = some false ↔
      ∃ j < i, ∃ other, offered[j]? = some other ∧ (empty.pushAll offered).2[j]? = some true ∧
        edit.Meets other := by
  obtain ⟨before, after, rfl, rfl⟩ : ∃ before after, offered = before ++ edit :: after ∧
      before.length = i := by
    obtain ⟨bound, rfl⟩ := List.getElem?_eq_some_iff.mp isOffered
    refine ⟨offered.take i, offered.drop (i + 1), ?_, ?_⟩
    · rw [List.getElem_cons_drop, List.take_append_drop]
    · rw [List.length_take]
      omega
  have meets : ∀ other ∈ before, (edit.overlaps other = true ↔ edit.Meets other) :=
    fun other member => Edit.overlaps_iff_meets (within edit (by simp)).forward
      (within other (List.mem_append_left _ member)).forward
  rw [answer_eq, Option.some.injEq, Option.isSome_eq_false_iff, Option.isNone_iff_eq_none,
    push?_eq_none_iff, toList_pushAll]
  constructor
  · rintro ⟨other, member, met⟩
    obtain ⟨j, isOther, yes⟩ := mem_accepted_iff.mp member
    obtain ⟨bound, -⟩ := List.getElem?_eq_some_iff.mp isOther
    refine ⟨j, bound, other, ?_, ?_, (meets other (List.mem_of_getElem? isOther)).mp met⟩
    · rwa [List.getElem?_append_left bound]
    · rwa [earlier_answer_eq empty before _ bound]
  · rintro ⟨j, bound, other, isOther, yes, met⟩
    rw [List.getElem?_append_left bound] at isOther
    rw [earlier_answer_eq empty before _ bound] at yes
    refine ⟨other, mem_accepted_iff.mpr ⟨j, isOther, yes⟩, ?_⟩
    exact (meets other (List.mem_of_getElem? isOther)).mpr met

/-! ## Edits in any order -/

/-- Of the edits that are offered the accepted ones meet nowhere, and an edit is refused exactly if
it meets one that was accepted before it.  The accepted ones are carried out, with the one result
in which each has replaced its characters and all others are kept; and if they are offered again in
another order, then all are accepted and the result is the same. -/
theorem edits_are_spliced {source : List Char} {offered : List Edit} {edits : Edits}
    {answers : List Bool} (within : ∀ edit ∈ offered, edit.IsWithin source)
    (pushed : empty.pushAll offered = (edits, answers)) :
    (edits.toList = accepted offered answers ∧ answers.length = offered.length) ∧
      (edits.toList.Pairwise fun a b => ¬ a.Meets b) ∧
      (∀ (i : Nat) (edit : Edit), offered[i]? = some edit →
        (answers[i]? = some false ↔ ∃ j < i, ∃ other, offered[j]? = some other ∧
          answers[j]? = some true ∧ edit.Meets other)) ∧
      (edits.splice? source = some (edits.apply source) ∧
        ∀ result, IsSpliceOf source edits.toList result ↔ result = edits.apply source) ∧
      ∀ others, others.Perm edits.toList →
        (empty.pushAll others).2 = others.map (fun _ => true) ∧
          (empty.pushAll others).1.splice? source = some (edits.apply source) := by
  obtain ⟨rfl, rfl⟩ := Prod.mk.inj pushed
  have amongOffered : ∀ edit ∈ (empty.pushAll offered).1.toList, edit ∈ offered := by
    intro edit member
    exact (mem_or_mem_of_mem_pushAll member).resolve_left nofun
  have withinAll := fun edit member => within edit (amongOffered edit member)
  have apart : AreApart (empty.pushAll offered).1.toList :=
    areApart_pushAll List.Pairwise.nil offered
  have carried : (empty.pushAll offered).1.splice? source =
      some ((empty.pushAll offered).1.apply source) := by
    rw [apply, splice?_eq_some withinAll apart, Option.getD_some]
  refine ⟨⟨toList_pushAll empty offered, length_answers empty offered⟩, ?_,
    fun i edit => answer_eq_false_iff within, ⟨carried, fun result => ?_⟩, fun others perm => ?_⟩
  · refine apart.imp_of_mem fun {a b} first second free met => ?_
    have overlap := (Edit.overlaps_iff_meets (withinAll a first).forward
      (withinAll b second).forward).mpr met
    rw [free] at overlap
    cases overlap
  · rw [← splice?_eq_some_iff withinAll apart, carried, Option.some.injEq]
    exact eq_comm
  · have apartOthers : AreApart others := apart.perm perm.symm
    have all : empty.pushAll others = (⟨others⟩, others.map fun _ => true) :=
      pushAll_eq_of_areApart apartOthers
    rw [all]
    refine ⟨rfl, ?_⟩
    rw [splice?_eq_some_iff (fun edit member => withinAll edit (perm.subset member)) apartOthers]
    exact ((splice?_eq_some_iff withinAll apart).mp carried).perm perm.symm

/-- Edits of `Range::all()`: the third one meets the second, and the last touches both of the
others. -/
def rangeEdits : List Edit :=
  [⟨7, 10, "ALL".toList⟩, ⟨0, 5, "cv::Range".toList⟩, ⟨2, 6, "x".toList⟩, ⟨5, 7, ".".toList⟩]

theorem touching_edits_are_spliced :
    (∀ edit ∈ rangeEdits, edit.IsWithin "Range::all()".toList) ∧
      empty.pushAll rangeEdits =
        (⟨[⟨7, 10, "ALL".toList⟩, ⟨0, 5, "cv::Range".toList⟩, ⟨5, 7, ".".toList⟩]⟩,
          [true, true, false, true]) ∧
      (∃ j < 2, ∃ other, rangeEdits[j]? = some other ∧ [true, true, false, true][j]? = some true ∧
        (⟨2, 6, "x".toList⟩ : Edit).Meets other) ∧
      (empty.pushAll [⟨5, 7, ".".toList⟩, ⟨7, 10, "ALL".toList⟩,
        ⟨0, 5, "cv::Range".toList⟩]).1.splice? "Range::all()".toList =
          some "cv::Range.ALL()".toList := by
  have within : ∀ edit ∈ rangeEdits, edit.IsWithin "Range::all()".toList := by decide +kernel
  have pushed : empty.pushAll rangeEdits =
      (⟨[⟨7, 10, "ALL".toList⟩, ⟨0, 5, "cv::Range".toList⟩, ⟨5, 7, ".".toList⟩]⟩,
        [true, true, false, true]) := by decide +kernel
  obtain ⟨-, -, refused, ⟨-, unique⟩, reordered⟩ := edits_are_spliced within pushed
  have cut : IsSpliceOf "Range::all()".toList
      [⟨7, 10, "ALL".toList⟩, ⟨0, 5, "cv::Range".toList⟩, ⟨5, 7, ".".toList⟩]
      "cv::Range.ALL()".toList :=
    ⟨[.replaced "Range".toList "cv::Range".toList, .replaced "::".toList ".".toList,
      .replaced "all".toList "ALL".toList, .kept "()".toList], by decide +kernel,
      by decide +kernel, by decide +kernel⟩
  have perm : [⟨5, 7, ".".toList⟩, ⟨7, 10, "ALL".toList⟩, ⟨0, 5, "cv::Range".toList⟩].Perm
      [(⟨7, 10, "ALL".toList⟩ : Edit), ⟨0, 5, "cv::Range".toList⟩, ⟨5, 7, ".".toList⟩] := by
    decide +kernel
  refine ⟨within, pushed, (refused 2 _ rfl).mp rfl, (reordered _ perm).2.trans ?_⟩
  rw [(unique _).mp cut]

end Edits

end Bindery
