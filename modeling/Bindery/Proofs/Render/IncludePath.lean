import Bindery.Render.Include
import Bindery.Proofs.Run.Paths
import Mathlib.Data.List.Induction

/-!
# Where include paths lead

An include path goes up from the directory of the including file and then down to the target.  It
goes up no further than it must.  Written with `/` in the place of each `\`, it leads to the target
if and only if no component that it names has a `\` in it.
-/

set_option autoImplicit false

namespace Bindery

namespace Path

/-! ## Ways -/

/-- Whether a component is a name: not the root, `.` or `..`. -/
def Component.IsName (component : Component) : Prop :=
  ∃ text, component = .name text

instance (component : Component) : Decidable component.IsName :=
  match component with
  | .root | .here | .up => isFalse nofun
  | .name text => isTrue ⟨text, rfl⟩

/-- A relative path without `.` and `..`. -/
def IsPlain (path : String) : Prop :=
  ∀ component ∈ components path, component.IsName

instance (path : String) : Decidable (IsPlain path) :=
  inferInstanceAs (Decidable (∀ component ∈ components path, component.IsName))

/-- Where a way leads to from a place: `..` takes the last component away, and any other component
is added. -/
def walk : List Component → List Component → List Component
  | place, [] => place
  | place, .up :: way => walk place.dropLast way
  | place, component :: way => walk (place ++ [component]) way

/-- A way that goes up a number of steps and then down by names only. -/
def IsDirect (steps : Nat) (way : List Component) : Prop :=
  ∃ down : List Component, way = List.replicate steps .up ++ down ∧ ∀ name ∈ down, name.IsName

/-- Whether `path`, seen from `directory`, leads to `target`. -/
def LeadsTo (directory path target : String) : Prop :=
  walk (components directory) (components path) = components target

instance (directory path target : String) : Decidable (LeadsTo directory path target) :=
  inferInstanceAs (Decidable (_ = _))

/-- A way that goes up first, and no further than any other such way to the same place. -/
def IsShortest (place way : List Component) : Prop :=
  ∃ steps, IsDirect steps way ∧
    ∀ fewer other, IsDirect fewer other → walk place other = walk place way → steps ≤ fewer

theorem walk_append (place first second : List Component) :
    walk place (first ++ second) = walk (walk place first) second := by
  fun_induction walk place first with
  | case1 place => rfl
  | case2 place way ih => exact ih
  | case3 place component way other ih =>
      rw [List.cons_append, walk]
      · exact ih
      · exact other

theorem walk_up (place : List Component) (steps : Nat) :
    walk place (List.replicate steps .up) = place.take (place.length - steps) := by
  induction steps generalizing place with
  | zero => simp [walk]
  | succ steps ih =>
      rw [List.replicate_succ, walk, ih, List.length_dropLast, List.dropLast_eq_take,
        List.take_take]
      congr 1
      omega

theorem walk_down {down : List Component} (names : ∀ name ∈ down, name.IsName)
    (place : List Component) : walk place down = place ++ down := by
  induction down generalizing place with
  | nil => simp [walk]
  | cons name down ih =>
      obtain ⟨⟨text, rfl⟩, others⟩ := List.forall_mem_cons.mp names
      rw [walk, ih others, List.append_assoc, List.singleton_append]
      exact nofun

/-- What is at the end of a way was in front of it or is on it. -/
theorem exists_walk_eq (place way : List Component) :
    ∃ kept added, walk place way = place.take kept ++ added ∧ added ⊆ way := by
  fun_induction walk place way with
  | case1 place => exact ⟨place.length, [], by simp, List.nil_subset _⟩
  | case2 place way ih =>
      obtain ⟨kept, added, same, inside⟩ := ih
      refine ⟨min kept (place.length - 1), added, ?_, fun _ member => ?_⟩
      · rw [same, List.dropLast_eq_take, List.take_take]
      · exact List.mem_cons_of_mem _ (inside member)
  | case3 place component way other ih =>
      obtain ⟨kept, added, same, inside⟩ := ih
      rw [same, List.take_append, List.append_assoc]
      refine ⟨kept, _, rfl, fun moved member => ?_⟩
      rcases List.mem_append.mp member with here | later
      · exact List.mem_cons.mpr (.inl (List.mem_singleton.mp (List.mem_of_mem_take here)))
      · exact List.mem_cons_of_mem _ (inside later)

/-! ## What two paths share -/

theorem exists_shared (left right : List Component) :
    ∃ shared, left = shared ++ (dropCommon left right).1 ∧
      right = shared ++ (dropCommon left right).2 ∧
      ∀ first ∈ (dropCommon left right).1.head?, first ∉ (dropCommon left right).2.head? := by
  fun_induction dropCommon left right with
  | case1 left component right ih =>
      obtain ⟨shared, isLeft, isRight, apart⟩ := ih
      exact ⟨component :: shared, congrArg (component :: ·) isLeft,
        congrArg (component :: ·) isRight, apart⟩
  | case2 first left second right differ =>
      refine ⟨[], rfl, rfl, fun other isFirst isSecond => differ ?_⟩
      exact (Option.some.inj isFirst).trans (Option.some.inj isSecond).symm
  | case3 left right none =>
      refine ⟨[], rfl, rfl, fun other isFirst isSecond => ?_⟩
      cases left with
      | nil => cases isFirst
      | cons _ _ =>
          cases right with
          | nil => cases isSecond
          | cons _ _ => exact none _ _ _ _ rfl rfl

section

variable {shared left entered : List Component}

/-- The way up from what is left over and down to what is entered. -/
def wayBetween (left entered : List Component) : List Component :=
  List.replicate left.length .up ++ entered

theorem walk_wayBetween (names : ∀ name ∈ entered, name.IsName) :
    walk (shared ++ left) (wayBetween left entered) = shared ++ entered := by
  rw [wayBetween, walk_append, walk_up, walk_down names]
  simp

/-- Whoever goes up less stays behind what the place and the target share. -/
theorem length_le_of_walk_eq {fewer : Nat} {down : List Component}
    (names : ∀ name ∈ down, name.IsName)
    (apart : ∀ first ∈ left.head?, first ∉ entered.head?)
    (arrives : walk (shared ++ left) (List.replicate fewer .up ++ down) = shared ++ entered) :
    left.length ≤ fewer := by
  by_contra less
  rw [walk_append, walk_up, walk_down names] at arrives
  cases left with
  | nil => exact less (Nat.zero_le fewer)
  | cons first left =>
      have long : (shared ++ first :: left).length - fewer =
          shared.length + (left.length - fewer + 1) := by
        simp only [List.length_append, List.length_cons] at less ⊢
        omega
      rw [long, List.take_length_add_append, List.append_assoc, List.take_succ_cons,
        List.cons_append] at arrives
      apply apart first rfl
      rw [← List.append_cancel_left arrives]
      rfl

theorem isShortest_wayBetween (names : ∀ name ∈ entered, name.IsName)
    (apart : ∀ first ∈ left.head?, first ∉ entered.head?) :
    IsShortest (shared ++ left) (wayBetween left entered) := by
  refine ⟨left.length, ⟨entered, rfl, names⟩, fun fewer other direct arrives => ?_⟩
  obtain ⟨down, rfl, downNames⟩ := direct
  rw [walk_wayBetween names] at arrives
  exact length_le_of_walk_eq downNames apart arrives

/-- Of what is left over nothing is kept on the way, since the target goes on otherwise. -/
theorem take_eq_of_walk_eq {kept : Nat} {added : List Component}
    (apart : ∀ first ∈ left.head?, first ∉ entered.head?)
    (arrives : shared ++ entered = (shared ++ left).take kept ++ added) :
    (shared ++ left).take kept = shared.take kept := by
  rw [List.take_append] at arrives ⊢
  cases left with
  | nil => simp
  | cons first left =>
      cases beyond : kept - shared.length with
      | zero => simp
      | succ more =>
          have all : shared.length ≤ kept := by omega
          rw [List.take_of_length_le all, beyond, List.take_succ_cons, List.append_assoc] at arrives
          apply absurd _ (apart first rfl)
          rw [List.append_cancel_left arrives]
          rfl

/-- What is entered is on every way to the target. -/
theorem entered_subset_of_walk_eq {way : List Component}
    (apart : ∀ first ∈ left.head?, first ∉ entered.head?)
    (arrives : walk (shared ++ left) way = shared ++ entered) : entered ⊆ way := by
  obtain ⟨kept, added, same, onWay⟩ := exists_walk_eq (shared ++ left) way
  rw [arrives] at same
  rw [take_eq_of_walk_eq apart same] at same
  have rest : shared.drop kept ++ entered = added := by
    refine @List.append_cancel_left _ (shared.take kept) _ _ ?_
    rw [← List.append_assoc, List.take_append_drop, same]
  intro name inside
  apply onWay
  rw [← rest]
  exact List.mem_append_right _ inside

end

/-! ## Writing components -/

/-- Whether a component can stand anywhere in a path: it is `..` or a file name. -/
def Component.IsStep (component : Component) : Prop :=
  IsPiece component.text.toList ∧ componentOf component.text.toList = component

theorem isStep_up : Component.IsStep .up := by
  refine ⟨⟨?_, ?_⟩, rfl⟩ <;> decide

theorem isStep_of_mem_components {path text : String}
    (member : Component.name text ∈ components path) : Component.IsStep (.name text) := by
  obtain ⟨inside, counts, same⟩ := mem_body_of_mem_components member
  exact ⟨⟨not_mem_body inside, counts⟩, same⟩

theorem components_ofComponents {way : List Component}
    (steps : ∀ component ∈ way, component.IsStep) : components (ofComponents way) = way := by
  induction way using List.reverseRecOn with
  | nil => rfl
  | append_singleton way last ih =>
      obtain ⟨before, isLast⟩ := List.forall_mem_append.mp steps
      obtain ⟨isPiece, same⟩ := isLast last (List.mem_singleton_self last)
      have joined := @components_join_piece (ofComponents way) _ isPiece
      rw [String.ofList_toList, ih before, same] at joined
      rw [ofComponents, List.foldl_append]
      exact joined

theorem mem_join {base path : String} {c : Char} (member : c ∈ (join base path).toList) :
    c ∈ base.toList ∨ c = '/' ∨ c ∈ path.toList := by
  unfold join at member
  split at member
  · exact .inr (.inr member)
  · split at member <;> simp only [String.toList_append, List.mem_append] at member
    · exact member.imp_right .inr
    · rcases member with (inBase | slash) | inPath
      · exact .inl inBase
      · exact .inr (.inl (by simpa using slash))
      · exact .inr (.inr inPath)

theorem mem_ofComponents {way : List Component} {c : Char}
    (member : c ∈ (ofComponents way).toList) :
    c = '/' ∨ ∃ component ∈ way, c ∈ component.text.toList := by
  induction way using List.reverseRecOn with
  | nil => cases member
  | append_singleton way last ih =>
      rw [ofComponents, List.foldl_append] at member
      rcases mem_join member with inFront | slash | inLast
      · rcases ih inFront with slash | ⟨component, inside, found⟩
        · exact .inl slash
        · exact .inr ⟨component, List.mem_append_left _ inside, found⟩
      · exact .inl slash
      · exact .inr ⟨last, List.mem_append_right _ (List.mem_singleton_self _), inLast⟩

/-! ## Slashes -/

theorem not_mem_withSlashes (path : String) : '\\' ∉ (withSlashes path).toList := by
  unfold withSlashes
  rw [String.toList_map, List.mem_map]
  rintro ⟨c, -, same⟩
  split at same
  · cases same
  · contradiction

theorem withSlashes_eq_self {path : String} (clear : '\\' ∉ path.toList) :
    withSlashes path = path := by
  have same : ∀ c ∈ path.toList, (if c = '\\' then '/' else c) = id c := by
    intro c member
    apply if_neg
    rintro rfl
    exact clear member
  rw [← String.toList_inj, withSlashes, String.toList_map, List.map_congr_left same, List.map_id]

theorem mem_of_mem_components {path text : String} {c : Char}
    (member : Component.name text ∈ components path) (inside : c ∈ text.toList) :
    c ∈ path.toList := by
  have piece := (mem_body_of_mem_components member).1
  unfold Parts.ofText at piece
  split at piece
  case h_1 rest same =>
    rw [same]
    exact List.mem_cons_of_mem _ (mem_of_mem_pieces piece inside)
  case h_2 => cases piece
  case h_3 rest same =>
    rw [same]
    rcases List.mem_cons.mp piece with empty | later
    · rw [empty] at inside
      cases inside
    · exact List.mem_cons_of_mem _ (List.mem_cons_of_mem _ (mem_of_mem_pieces later inside))
  case h_4 => exact mem_of_mem_pieces piece inside

/-! ## Include paths -/

/-- The components of a target behind those that it shares with a directory. -/
def entered (directory target : String) : List Component :=
  (dropCommon (components directory) (components target)).2

/-- The way that an include path is written from. -/
def includeWay (directory target : String) : List Component :=
  wayBetween (dropCommon (components directory) (components target)).1 (entered directory target)

theorem includePath_eq (directory target : String) :
    includePath directory target = withSlashes (ofComponents (includeWay directory target)) := by
  rw [includeWay, wayBetween, ← List.map_const']
  rfl

section

variable {directory target : String}

theorem entered_subset : entered directory target ⊆ components target := by
  obtain ⟨shared, -, isTarget, -⟩ := exists_shared (components directory) (components target)
  rw [isTarget]
  exact List.subset_append_right shared _

theorem forall_mem_includeWay {holds : Component → Prop} (up : holds .up)
    (names : ∀ name ∈ entered directory target, holds name) :
    ∀ component ∈ includeWay directory target, holds component := by
  intro component member
  rcases List.mem_append.mp member with above | below
  · rw [List.eq_of_mem_replicate above]
    exact up
  · exact names component below

variable (plain : IsPlain target)
include plain

theorem components_includeWay :
    components (ofComponents (includeWay directory target)) = includeWay directory target := by
  apply components_ofComponents
  apply forall_mem_includeWay isStep_up
  intro name inside
  obtain ⟨text, rfl⟩ := plain name (entered_subset inside)
  exact isStep_of_mem_components (entered_subset inside)

/-- Where the target goes on apart from the directory, the way up and down leads there and is the
shortest, and any other way there has all that is entered on it. -/
theorem includeWay_leads :
    walk (components directory) (includeWay directory target) = components target ∧
      IsShortest (components directory) (includeWay directory target) ∧
      ∀ way, walk (components directory) way = components target →
        entered directory target ⊆ way := by
  have names : ∀ name ∈ entered directory target, name.IsName :=
    fun name inside => plain name (entered_subset inside)
  obtain ⟨shared, isDirectory, isTarget, apart⟩ :=
    exists_shared (components directory) (components target)
  unfold includeWay
  unfold entered at names ⊢
  generalize (dropCommon (components directory) (components target)).1 = left at *
  generalize (dropCommon (components directory) (components target)).2 = entered at *
  rw [isDirectory, isTarget]
  exact ⟨walk_wayBetween names, isShortest_wayBetween names apart,
    fun way => entered_subset_of_walk_eq apart⟩

theorem components_includePath
    (clear : ∀ name ∈ entered directory target, '\\' ∉ name.text.toList) :
    components (includePath directory target) = includeWay directory target := by
  rw [includePath_eq, withSlashes_eq_self, components_includeWay plain]
  intro member
  rcases mem_ofComponents member with slash | ⟨component, onWay, inside⟩
  · cases slash
  · exact forall_mem_includeWay (by decide) clear component onWay inside

/-- An include path leads to its target exactly if no component that the target does not share with
the directory has a `\` in it; and then it goes up first, and no further than it must. -/
theorem include_path_leads_iff :
    (LeadsTo directory (includePath directory target) target ↔
        ∀ name ∈ entered directory target, '\\' ∉ name.text.toList) ∧
      (LeadsTo directory (includePath directory target) target →
        IsShortest (components directory) (components (includePath directory target))) := by
  obtain ⟨leads, shortest, passes⟩ := @includeWay_leads directory _ plain
  have clear : LeadsTo directory (includePath directory target) target →
      ∀ name ∈ entered directory target, '\\' ∉ name.text.toList := by
    intro arrives name inside backslash
    obtain ⟨text, rfl⟩ := plain name (entered_subset inside)
    apply not_mem_withSlashes (ofComponents (includeWay directory target))
    rw [← includePath_eq]
    exact mem_of_mem_components (passes _ arrives inside) backslash
  refine ⟨⟨clear, fun none => ?_⟩, fun arrives => ?_⟩
  · rw [LeadsTo, components_includePath plain none, leads]
  · rw [components_includePath plain (clear arrives)]
    exact shortest

end

theorem detail_path_leads_to_core :
    IsPlain "core/matx-rb.ipp" ∧
      includePath "imgproc/detail" "core/matx-rb.ipp" = "../../core/matx-rb.ipp" ∧
      LeadsTo "imgproc/detail" "../../core/matx-rb.ipp" "core/matx-rb.ipp" := by
  have plain : IsPlain "core/matx-rb.ipp" := by decide +kernel
  have written : includePath "imgproc/detail" "core/matx-rb.ipp" = "../../core/matx-rb.ipp" := by
    decide +kernel
  refine ⟨plain, written, ?_⟩
  rw [← written]
  exact (include_path_leads_iff plain).1.mpr (by decide +kernel)

/-- A file with a `\` in its name is looked for in a directory that there is not. -/
theorem backslash_leads_astray :
    IsPlain "" ∧ IsPlain "x\\y-rb.ipp" ∧ includePath "" "x\\y-rb.ipp" = "x/y-rb.ipp" ∧
      ¬ LeadsTo "" (includePath "" "x\\y-rb.ipp") "x\\y-rb.ipp" := by
  decide +kernel

end Path

end Bindery
