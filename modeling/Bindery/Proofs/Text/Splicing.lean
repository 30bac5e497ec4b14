import Bindery.Text.Edits
import Mathlib.Data.List.Pairwise

/-!
# Splicing

Edits are offered one after the other, and an edit that overlaps an accepted one is refused.  The
accepted edits keep off each other, so that they are carried out from left to right; and each edit
that was refused is overlapped by one that was accepted.
-/

set_option autoImplicit false

namespace Bindery

namespace Edit

/-- An edit that replaces at least one character, and none beyond the end of the source. -/
structure IsWithin (source : List Char) (edit : Edit) : Prop where
  forward : edit.start < edit.stop
  inside : edit.stop ≤ source.length

instance (source : List Char) (edit : Edit) : Decidable (edit.IsWithin source) :=
  decidable_of_iff (edit.start < edit.stop ∧ edit.stop ≤ source.length)
    ⟨fun ⟨forward, inside⟩ => ⟨forward, inside⟩, fun ⟨forward, inside⟩ => ⟨forward, inside⟩⟩

theorem overlaps_comm (a b : Edit) : a.overlaps b = b.overlaps a := by
  simp [overlaps, Bool.and_comm]

theorem before_or_behind {a b : Edit} (apart : a.overlaps b = false) :
    b.stop ≤ a.start ∨ a.stop ≤ b.start := by
  simp only [overlaps, Bool.and_eq_false_iff, decide_eq_false_iff_not] at apart
  omega

theorem IsWithin.overlaps_self {source : List Char} {edit : Edit} (within : edit.IsWithin source) :
    edit.overlaps edit = true := by
  simp [overlaps, within.forward]

end Edit

namespace Edits

/-! ## Accepting edits -/

/-- Edits of which no two overlap. -/
def AreApart (edits : List Edit) : Prop :=
  edits.Pairwise fun a b => a.overlaps b = false

theorem AreApart.perm {edits others : List Edit} (apart : AreApart edits)
    (same : edits.Perm others) : AreApart others := by
  apply List.Pairwise.perm apart same
  intro a b free
  rwa [Edit.overlaps_comm]

theorem AreApart.overlaps_eq_false {edits : List Edit} (apart : AreApart edits) {a b : Edit}
    (first : a ∈ edits) (second : b ∈ edits) (differ : a ≠ b) : a.overlaps b = false := by
  have symmetric : Std.Symm fun a b : Edit => a.overlaps b = false :=
    ⟨fun a b free => (Edit.overlaps_comm b a).trans free⟩
  exact List.Pairwise.forall apart first second differ

theorem push_cases (edits : Edits) (edit : Edit) :
    (edits.push edit = ⟨edits.toList ++ [edit]⟩ ∧
        ∀ other ∈ edits.toList, edit.overlaps other = false) ∨
      (edits.push edit = edits ∧ ∃ other ∈ edits.toList, edit.overlaps other = true) := by
  cases met : edits.toList.any edit.overlaps with
  | false =>
      left
      refine ⟨by simp [push, push?, met], ?_⟩
      simpa [List.any_eq_false] using met
  | true =>
      right
      refine ⟨by simp [push, push?, met], ?_⟩
      simpa [List.any_eq_true] using met

theorem pushAll_cons (edits : Edits) (edit : Edit) (later : List Edit) :
    (edits.pushAll (edit :: later)).1 = ((edits.push edit).pushAll later).1 :=
  rfl

theorem push?_eq_some {edits : Edits} {edit : Edit}
    (free : ∀ other ∈ edits.toList, edit.overlaps other = false) :
    edits.push? edit = some ⟨edits.toList ++ [edit]⟩ := by
  rw [push?, if_neg]
  simpa [List.any_eq_false] using free

/-- Edits that are apart are all accepted, in whatever order they come. -/
theorem pushAll_eq_of_areApart {edits : Edits} {later : List Edit}
    (apart : AreApart (edits.toList ++ later)) :
    edits.pushAll later = (⟨edits.toList ++ later⟩, later.map fun _ => true) := by
  induction later generalizing edits with
  | nil => simp [pushAll]
  | cons edit later ih =>
      have free : ∀ other ∈ edits.toList, edit.overlaps other = false := by
        intro other member
        rw [Edit.overlaps_comm]
        exact (List.pairwise_append.mp apart).2.2 other member edit List.mem_cons_self
      have accepted := push?_eq_some free
      have behind : AreApart (edits.toList ++ [edit] ++ later) := by
        rwa [List.append_assoc, List.singleton_append]
      rw [pushAll, push, accepted, Option.getD_some, ih behind]
      simp

theorem areApart_push {edits : Edits} (apart : AreApart edits.toList) (edit : Edit) :
    AreApart (edits.push edit).toList := by
  rcases edits.push_cases edit with ⟨pushed, free⟩ | ⟨refused, -⟩
  · rw [pushed]
    apply List.pairwise_append.mpr
    refine ⟨apart, List.pairwise_singleton _ _, ?_⟩
    intro other member last isLast
    rw [List.mem_singleton.mp isLast, Edit.overlaps_comm]
    exact free other member
  · rwa [refused]

theorem areApart_pushAll {edits : Edits} (apart : AreApart edits.toList) (later : List Edit) :
    AreApart (edits.pushAll later).1.toList := by
  induction later generalizing edits with
  | nil => exact apart
  | cons edit later ih => exact ih (areApart_push apart edit)

theorem mem_push_of_mem {edits : Edits} {other : Edit} (accepted : other ∈ edits.toList)
    (edit : Edit) : other ∈ (edits.push edit).toList := by
  rcases edits.push_cases edit with ⟨pushed, -⟩ | ⟨refused, -⟩
  · rw [pushed]
    exact List.mem_append_left _ accepted
  · rwa [refused]

theorem mem_pushAll_of_mem {edits : Edits} {other : Edit} (accepted : other ∈ edits.toList)
    (later : List Edit) : other ∈ (edits.pushAll later).1.toList := by
  induction later generalizing edits with
  | nil => exact accepted
  | cons edit later ih => exact ih (mem_push_of_mem accepted edit)

theorem mem_or_mem_of_mem_pushAll {edits : Edits} {later : List Edit} {other : Edit}
    (accepted : other ∈ (edits.pushAll later).1.toList) :
    other ∈ edits.toList ∨ other ∈ later := by
  induction later generalizing edits with
  | nil => exact .inl accepted
  | cons edit later ih =>
      rcases ih accepted with among | behind
      · rcases edits.push_cases edit with ⟨pushed, -⟩ | ⟨refused, -⟩
        · rw [pushed] at among
          rcases List.mem_append.mp among with earlier | last
          · exact .inl earlier
          · simp [List.mem_singleton.mp last]
        · rw [refused] at among
          exact .inl among
      · exact .inr (List.mem_cons_of_mem edit behind)

/-- An edit that is offered is accepted, or it overlaps one that is. -/
theorem exists_overlaps_of_mem {source : List Char} {edits : Edits} {later : List Edit}
    {edit : Edit} (within : edit.IsWithin source) (offered : edit ∈ later) :
    ∃ other ∈ (edits.pushAll later).1.toList, edit.overlaps other = true := by
  induction later generalizing edits with
  | nil => cases offered
  | cons first later ih =>
      rcases List.mem_cons.mp offered with rfl | behind
      · rcases edits.push_cases edit with ⟨pushed, -⟩ | ⟨refused, other, member, met⟩
        · have last : edit ∈ (edits.push edit).toList := by simp [pushed]
          exact ⟨edit, mem_pushAll_of_mem last later, within.overlaps_self⟩
        · rw [pushAll_cons, refused]
          exact ⟨other, mem_pushAll_of_mem member later, met⟩
      · exact ih behind

/-! ## Carrying edits out -/

/-- Edits of a source that follow each other from `cursor` on. -/
def FitsFrom (source : List Char) : Nat → List Edit → Prop
  | cursor, [] => cursor ≤ source.length
  | cursor, edit :: later =>
      cursor ≤ edit.start ∧ edit.start < edit.stop ∧ FitsFrom source edit.stop later

/-- The source from `cursor` on, edits that follow each other carried out. -/
def spliceFrom (source : List Char) (cursor : Nat) : List Edit → List Char
  | [] => source.drop cursor
  | edit :: later =>
      (source.take edit.start).drop cursor ++ edit.text ++ spliceFrom source edit.stop later

variable {source : List Char}

theorem FitsFrom.le_length {cursor : Nat} {edits : List Edit}
    (fits : FitsFrom source cursor edits) : cursor ≤ source.length := by
  induction edits generalizing cursor with
  | nil => exact fits
  | cons edit later ih =>
      obtain ⟨before, forward, behind⟩ := fits
      have inside := ih behind
      omega

theorem FitsFrom.applyFrom_eq {cursor : Nat} {edits : List Edit}
    (fits : FitsFrom source cursor edits) :
    applyFrom source cursor edits = some (spliceFrom source cursor edits) := by
  induction edits generalizing cursor with
  | nil => exact if_pos fits
  | cons edit later ih =>
      obtain ⟨before, forward, behind⟩ := fits
      have inside := behind.le_length
      rw [applyFrom, if_pos ⟨before, by omega⟩, ih behind]
      rfl

/-- Edits in the order of their starts follow each other if no two overlap. -/
theorem fitsFrom_of_pairwise {cursor : Nat} {edits : List Edit}
    (within : ∀ edit ∈ edits, edit.IsWithin source) (behind : ∀ edit ∈ edits, cursor ≤ edit.start)
    (inside : cursor ≤ source.length) (apart : AreApart edits)
    (ordered : edits.Pairwise fun a b => a.start ≤ b.start) : FitsFrom source cursor edits := by
  induction edits generalizing cursor with
  | nil => exact inside
  | cons edit later ih =>
      obtain ⟨here, withinLater⟩ := List.forall_mem_cons.mp within
      obtain ⟨free, apartLater⟩ := List.pairwise_cons.mp apart
      obtain ⟨first, orderedLater⟩ := List.pairwise_cons.mp ordered
      refine ⟨behind edit List.mem_cons_self, here.forward, ?_⟩
      apply ih withinLater _ here.inside apartLater orderedLater
      intro other member
      have start := first other member
      have forward := (withinLater other member).forward
      have free := Edit.before_or_behind (free other member)
      omega

theorem sorted_eq_of_pairwise {edits : Edits} {accepted : List Edit} (are : edits.toList = accepted)
    (starts : accepted.Pairwise fun a b => a.start ≤ b.start) : edits.sorted = accepted := by
  have ordered : accepted.Pairwise fun a b => decide (a.start ≤ b.start) = true :=
    starts.imp decide_eq_true
  rw [sorted, are, List.mergeSort_of_pairwise ordered]

/-- Edits that were accepted in the order of their places are carried out in that order. -/
theorem apply_of_pairwise {edits : Edits} {accepted : List Edit} (source : List Char)
    (are : edits.toList = accepted) (starts : accepted.Pairwise fun a b => a.start ≤ b.start) :
    edits.apply source = (applyFrom source 0 accepted).getD source := by
  rw [apply, splice?, sorted_eq_of_pairwise are starts]

/-- The edits that are carried out when some are offered: they follow each other, all of them were
offered, and each offered edit overlaps one of them. -/
structure Carries (source : List Char) (offered carried : List Edit) : Prop where
  fits : FitsFrom source 0 carried
  among : ∀ edit ∈ carried, edit ∈ offered
  covers : ∀ edit ∈ offered, ∃ other ∈ carried, edit.overlaps other = true

theorem start_le_trans (a b c : Edit) (first : decide (a.start ≤ b.start) = true)
    (second : decide (b.start ≤ c.start) = true) : decide (a.start ≤ c.start) = true := by
  simp only [decide_eq_true_eq] at first second ⊢
  omega

theorem start_le_total (a b : Edit) :
    (decide (a.start ≤ b.start) || decide (b.start ≤ a.start)) = true := by
  simp only [Bool.or_eq_true, decide_eq_true_eq]
  omega

theorem pairwise_sorted (edits : Edits) : edits.sorted.Pairwise fun a b => a.start ≤ b.start :=
  (List.pairwise_mergeSort start_le_trans start_le_total edits.toList).imp of_decide_eq_true

theorem perm_sorted (edits : Edits) : edits.sorted.Perm edits.toList :=
  List.mergeSort_perm _ _

theorem fitsFrom_sorted {edits : Edits} (within : ∀ edit ∈ edits.toList, edit.IsWithin source)
    (apart : AreApart edits.toList) : FitsFrom source 0 edits.sorted :=
  fitsFrom_of_pairwise (fun edit member => within edit (List.mem_mergeSort.mp member))
    (fun edit _ => Nat.zero_le edit.start) (Nat.zero_le _)
    (apart.perm edits.perm_sorted.symm) edits.pairwise_sorted

theorem exists_carries {offered : List Edit} (within : ∀ edit ∈ offered, edit.IsWithin source) :
    ∃ carried, Carries source offered carried ∧
      (empty.pushAll offered).1.apply source = spliceFrom source 0 carried := by
  have among : ∀ edit ∈ (empty.pushAll offered).1.toList, edit ∈ offered := by
    intro edit member
    rcases mem_or_mem_of_mem_pushAll member with earlier | isOffered
    · cases earlier
    · exact isOffered
  have fits : FitsFrom source 0 (empty.pushAll offered).1.sorted :=
    fitsFrom_sorted (fun edit member => within edit (among edit member))
      (areApart_pushAll List.Pairwise.nil offered)
  refine ⟨_, ⟨fits, fun edit member => among edit (List.mem_mergeSort.mp member), ?_⟩, ?_⟩
  · intro edit isOffered
    obtain ⟨other, member, met⟩ := exists_overlaps_of_mem (within edit isOffered) isOffered
    exact ⟨other, List.mem_mergeSort.mpr member, met⟩
  · rw [apply, splice?, fits.applyFrom_eq, Option.getD_some]

/-! ## Longer texts -/

theorem FitsFrom.length_le {cursor : Nat} {edits : List Edit} (fits : FitsFrom source cursor edits)
    (longer : ∀ edit ∈ edits, edit.stop - edit.start < edit.text.length) :
    source.length + edits.length ≤ cursor + (spliceFrom source cursor edits).length := by
  induction edits generalizing cursor with
  | nil =>
      simp only [spliceFrom, List.length_drop, List.length_nil]
      omega
  | cons edit later ih =>
      obtain ⟨before, forward, behind⟩ := fits
      obtain ⟨here, longerLater⟩ := List.forall_mem_cons.mp longer
      have rest := ih behind longerLater
      have inside := behind.le_length
      simp only [spliceFrom, List.length_append, List.length_drop, List.length_take,
        List.length_cons]
      omega

/-- If each edit would make the text longer, then the text stays as it is only if there is none. -/
theorem apply_pushAll_eq_self_iff {offered : List Edit}
    (within : ∀ edit ∈ offered, edit.IsWithin source)
    (longer : ∀ edit ∈ offered, edit.stop - edit.start < edit.text.length) :
    (empty.pushAll offered).1.apply source = source ↔ offered = [] := by
  obtain ⟨carried, carries, applied⟩ := exists_carries within
  constructor
  · intro same
    have grown := carries.fits.length_le fun edit member => longer edit (carries.among edit member)
    rw [← applied, same] at grown
    have nothing : carried = [] := List.eq_nil_of_length_eq_zero (by omega)
    apply List.eq_nil_iff_forall_not_mem.mpr
    intro edit isOffered
    obtain ⟨other, member, -⟩ := carries.covers edit isOffered
    rw [nothing] at member
    cases member
  · rintro rfl
    rw [applied]
    cases carried with
    | nil => rfl
    | cons edit later => cases carries.among edit List.mem_cons_self

end Edits

/-! ## Texts that are kept -/

namespace Chars

/-- What stands up to a place between, and what stands from there on. -/
theorem stretch_append {source : List Char} {first middle last : Nat} (ahead : first ≤ middle)
    (onward : middle ≤ last) (inside : middle ≤ source.length) :
    (source.take middle).drop first ++ (source.take last).drop middle =
      (source.take last).drop first := by
  have parts := List.take_append_drop middle (source.take last)
  rw [List.take_take, Nat.min_eq_left onward] at parts
  have short : first ≤ (source.take middle).length := by
    rw [List.length_take]
    omega
  rw [← List.drop_append_of_le_length short, parts]

/-- Texts that stand in a source one behind the other from `cursor` on, each at its place. -/
def HoldsFrom (source : List Char) : Nat → List (Nat × List Char) → Prop
  | _, [] => True
  | cursor, (place, text) :: later =>
      cursor ≤ place ∧ place ≤ source.length ∧ text <+: source.drop place ∧
        HoldsFrom source (place + text.length) later

/-- Whether a text has some texts in it, one behind the other. -/
def HasInOrder : List (List Char) → List Char → Prop
  | [], _ => True
  | text :: texts, cs => ∃ front back, cs = front ++ text ++ back ∧ HasInOrder texts back

theorem HasInOrder.append_left {texts : List (List Char)} {cs : List Char}
    (has : HasInOrder texts cs) (front : List Char) : HasInOrder texts (front ++ cs) := by
  cases texts with
  | nil => trivial
  | cons text texts =>
      obtain ⟨before, back, rfl, behind⟩ := has
      exact ⟨front ++ before, back, by simp, behind⟩

end Chars

namespace Edits

variable {source : List Char}

theorem FitsFrom.le_start {cursor : Nat} {edits : List Edit} (fits : FitsFrom source cursor edits) :
    ∀ edit ∈ edits, cursor ≤ edit.start := by
  induction edits generalizing cursor with
  | nil => nofun
  | cons edit later ih =>
      obtain ⟨before, forward, behind⟩ := fits
      intro other member
      rcases List.mem_cons.mp member with rfl | isLater
      · exact before
      · have start := ih behind other isLater
        omega

/-- What stands before all edits is copied. -/
theorem FitsFrom.advance {cursor place : Nat} {edits : List Edit}
    (fits : FitsFrom source cursor edits) (onward : cursor ≤ place)
    (inside : place ≤ source.length) (before : ∀ edit ∈ edits, place ≤ edit.start) :
    FitsFrom source place edits ∧
      spliceFrom source cursor edits =
        (source.take place).drop cursor ++ spliceFrom source place edits := by
  cases edits with
  | nil =>
      have whole := Chars.stretch_append onward inside inside
      rw [List.take_length] at whole
      exact ⟨inside, whole.symm⟩
  | cons edit later =>
      obtain ⟨-, forward, behind⟩ := fits
      have ahead := before edit List.mem_cons_self
      refine ⟨⟨ahead, forward, behind⟩, ?_⟩
      rw [spliceFrom, spliceFrom, ← Chars.stretch_append onward ahead inside]
      simp only [List.append_assoc]

/-- A text that stands before all edits is copied with what stands before it. -/
theorem FitsFrom.pass {cursor place : Nat} {edits : List Edit} (fits : FitsFrom source cursor edits)
    {text : List Char} (onward : cursor ≤ place) (inside : place ≤ source.length)
    (stands : text <+: source.drop place)
    (before : ∀ edit ∈ edits, place + text.length ≤ edit.start) :
    FitsFrom source (place + text.length) edits ∧
      spliceFrom source cursor edits =
        (source.take place).drop cursor ++ text ++
          spliceFrom source (place + text.length) edits := by
  obtain ⟨back, cut⟩ := stands
  have size := congrArg List.length cut
  rw [List.length_append, List.length_drop] at size
  have whole : (source.take (place + text.length)).drop place = text := by
    rw [List.drop_take, ← cut, Nat.add_sub_cancel_left, List.take_left]
  have first : ∀ edit ∈ edits, place ≤ edit.start := by
    intro edit member
    have start := before edit member
    omega
  obtain ⟨fitsHere, upTo⟩ := fits.advance onward inside first
  have onwardTo : place ≤ place + text.length := Nat.le_add_right place text.length
  obtain ⟨fitsBehind, onTo⟩ := fitsHere.advance onwardTo (by omega) before
  exact ⟨fitsBehind, by rw [upTo, onTo, whole, List.append_assoc]⟩

/-- Texts that no edit touches are all kept, in their order. -/
theorem FitsFrom.hasInOrder {cursor : Nat} {edits : List Edit}
    (fits : FitsFrom source cursor edits) {entries : List (Nat × List Char)}
    (holds : Chars.HoldsFrom source cursor entries)
    (clear : ∀ edit ∈ edits, ∀ entry ∈ entries,
      edit.stop ≤ entry.1 ∨ entry.1 + entry.2.length ≤ edit.start) :
    Chars.HasInOrder (entries.map (·.2)) (spliceFrom source cursor edits) := by
  induction entries generalizing cursor edits with
  | nil => trivial
  | cons entry entries ih =>
      obtain ⟨place, text⟩ := entry
      -- The edits before the first text are passed one by one, then the text itself.
      induction edits generalizing cursor with
      | nil =>
          obtain ⟨onward, inside, stands, behind⟩ := holds
          obtain ⟨fitsBehind, parts⟩ := fits.pass onward inside stands nofun
          exact ⟨_, _, parts, ih fitsBehind behind nofun⟩
      | cons edit later ihEdits =>
          obtain ⟨onward, inside, stands, behind⟩ := holds
          rcases clear edit List.mem_cons_self (place, text) List.mem_cons_self with past | ahead
          · obtain ⟨-, -, fitsLater⟩ := fits
            apply Chars.HasInOrder.append_left
            apply ihEdits fitsLater ⟨past, inside, stands, behind⟩
            intro other member
            exact clear other (List.mem_cons_of_mem edit member)
          · have before : ∀ other ∈ edit :: later, place + text.length ≤ other.start := by
              intro other member
              rcases List.mem_cons.mp member with rfl | isLater
              · exact ahead
              · have start := fits.2.2.le_start other isLater
                have forward := fits.2.1
                dsimp only at ahead
                omega
            obtain ⟨fitsBehind, parts⟩ := fits.pass onward inside stands before
            refine ⟨_, _, parts, ih fitsBehind behind ?_⟩
            intro other member others isOther
            exact clear other member others (List.mem_cons_of_mem _ isOther)

end Edits

end Bindery
