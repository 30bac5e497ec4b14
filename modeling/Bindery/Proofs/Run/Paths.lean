import Bindery.Path
import Mathlib.Data.List.TakeWhile

/-!
# Components of joined paths

A file name put behind a path is one more component, however the path is written.  What a path says
of its directory and of its file name is therefore all that the files named after it depend on.
-/

set_option autoImplicit false

namespace Bindery

namespace Path

theorem pieces_ne_nil (cs : List Char) : pieces cs ≠ [] := by
  cases cs with
  | nil => exact List.cons_ne_nil _ _
  | cons c rest =>
      rw [pieces]
      split
      · exact List.cons_ne_nil _ _
      · split <;> exact List.cons_ne_nil _ _

/-- A slash separates the pieces to its left from those to its right. -/
theorem pieces_append_slash (left right : List Char) :
    pieces (left ++ '/' :: right) = pieces left ++ pieces right := by
  induction left with
  | nil => rfl
  | cons c left ih =>
      rw [List.cons_append, pieces, pieces, ih]
      by_cases slash : c = '/'
      · rw [if_pos slash, if_pos slash, List.cons_append]
      · rw [if_neg slash, if_neg slash]
        cases split : pieces left with
        | nil => exact absurd split (pieces_ne_nil left)
        | cons piece later => rfl

theorem pieces_of_not_mem {name : List Char} (noSlash : '/' ∉ name) : pieces name = [name] := by
  induction name with
  | nil => rfl
  | cons c rest ih =>
      obtain ⟨other, later⟩ := not_or.mp (mt List.mem_cons.mpr noSlash)
      rw [pieces, if_neg (Ne.symm other), ih later]

theorem not_mem_of_mem_pieces {cs piece : List Char} (member : piece ∈ pieces cs) :
    '/' ∉ piece := by
  induction cs generalizing piece with
  | nil =>
      obtain rfl := List.mem_singleton.mp member
      exact List.not_mem_nil
  | cons c rest ih =>
      rw [pieces] at member
      split at member
      · rcases List.mem_cons.mp member with rfl | later
        · exact List.not_mem_nil
        · exact ih later
      · rename_i other
        split at member
        · obtain rfl := List.mem_singleton.mp member
          exact fun slash => other (List.mem_singleton.mp slash).symm
        · rename_i piece' later split
          rcases List.mem_cons.mp member with rfl | behind
          · intro slash
            rcases List.mem_cons.mp slash with rfl | inside
            · exact other rfl
            · exact ih (split ▸ List.mem_cons_self) inside
          · exact ih (split ▸ List.mem_cons_of_mem _ behind)

theorem mem_of_mem_pieces {cs piece : List Char} {c : Char} (member : piece ∈ pieces cs)
    (inside : c ∈ piece) : c ∈ cs := by
  fun_induction pieces cs generalizing piece with
  | case1 =>
      cases List.mem_singleton.mp member
      exact inside
  | case2 rest ih =>
      rcases List.mem_cons.mp member with rfl | later
      · cases inside
      · exact List.mem_cons_of_mem _ (ih later inside)
  | case3 d rest other split ih =>
      exact absurd split (pieces_ne_nil rest)
  | case4 d rest other first later split ih =>
      rcases List.mem_cons.mp member with rfl | behind
      · rcases List.mem_cons.mp inside with rfl | within
        · exact List.mem_cons_self
        · exact List.mem_cons_of_mem _ (ih (split ▸ List.mem_cons_self) within)
      · exact List.mem_cons_of_mem _ (ih (split ▸ List.mem_cons_of_mem _ behind) inside)

/-- What the pieces of a path stand for. -/
def counted (body : List (List Char)) : List Component :=
  (body.filter fun piece => !isIdle piece).map componentOf

theorem counted_append (left right : List (List Char)) :
    counted (left ++ right) = counted left ++ counted right := by
  rw [counted, List.filter_append, List.map_append, counted, counted]

theorem components_eq {path : String} {lead : List Char} {body : List (List Char)}
    (parts : Parts.ofText path.toList = ⟨lead, body⟩) :
    components path = (Parts.mk lead []).leadComponents ++ counted body := by
  unfold components
  rw [parts]
  rfl

theorem isAbsolute_eq_false {path : String} (noSlash : '/' ∉ path.toList) :
    isAbsolute path = false := by
  unfold isAbsolute
  cases letters : path.toList with
  | nil => rfl
  | cons c rest =>
      rw [letters] at noSlash
      have other : c ≠ '/' := fun slash => noSlash (slash ▸ List.mem_cons_self)
      simpa using other

/-- Whether a text is one piece that counts. -/
structure IsPiece (piece : List Char) : Prop where
  noSlash : '/' ∉ piece
  counts : isIdle piece = false

/-- Whether a text is a file name: one piece, neither idle nor the way up. -/
structure IsFileName (name : List Char) : Prop where
  noSlash : '/' ∉ name
  counts : isIdle name = false
  notUp : name ≠ ['.', '.']

theorem IsFileName.isPiece {name : List Char} (isName : IsFileName name) : IsPiece name :=
  ⟨isName.noSlash, isName.counts⟩

theorem IsFileName.componentOf_eq {name : List Char} (isName : IsFileName name) :
    componentOf name = .name (String.ofList name) :=
  if_neg isName.notUp

namespace IsPiece

variable {piece : List Char} (isPiece : IsPiece piece)
include isPiece

theorem counted_eq : counted (pieces piece) = [componentOf piece] := by
  rw [pieces_of_not_mem isPiece.noSlash]
  simp [counted, isPiece.counts]

theorem ofText_eq : Parts.ofText piece = ⟨[], [piece]⟩ := by
  rw [← pieces_of_not_mem isPiece.noSlash]
  unfold Parts.ofText
  split
  · exact absurd List.mem_cons_self isPiece.noSlash
  · exact absurd isPiece.counts (by decide)
  · exact absurd (List.mem_cons_of_mem _ List.mem_cons_self) isPiece.noSlash
  · rfl

theorem components_eq : components (String.ofList piece) = [componentOf piece] := by
  have parts : Parts.ofText (String.ofList piece).toList = ⟨[], pieces piece⟩ := by
    rw [String.toList_ofList, isPiece.ofText_eq, pieces_of_not_mem isPiece.noSlash]
  rw [Path.components_eq parts, isPiece.counted_eq]
  rfl

theorem not_isAbsolute : isAbsolute (String.ofList piece) = false :=
  isAbsolute_eq_false (by rw [String.toList_ofList]; exact isPiece.noSlash)

end IsPiece

/-- Whether a text starts with a component of its own form, the root or the leading `.`. -/
def hasLead (cs : List Char) : Bool :=
  match cs with
  | '/' :: _ => true
  | ['.'] => true
  | '.' :: '/' :: _ => true
  | _ => false

theorem ofText_of_not_hasLead {cs : List Char} (bare : hasLead cs = false) :
    Parts.ofText cs = ⟨[], pieces cs⟩ := by
  unfold Parts.ofText
  split
  · cases bare
  · cases bare
  · cases bare
  · rfl

theorem hasLead_append_slash {base : List Char} (nonempty : base ≠ []) (rest : List Char) :
    hasLead (base ++ '/' :: rest) = hasLead base := by
  rcases base with _ | ⟨c, later⟩
  · exact absurd rfl nonempty
  by_cases root : c = '/'
  · subst root; rfl
  by_cases here : c = '.'
  · subst here
    rcases later with _ | ⟨d, later⟩
    · rfl
    · by_cases slash : d = '/'
      · subst slash; rfl
      · simp [hasLead, slash]
  · simp [hasLead, root, here]

theorem exists_of_hasLead {cs : List Char} (lead : hasLead cs = true) :
    (∃ later, cs = '/' :: later) ∨ cs = ['.'] ∨ ∃ later, cs = '.' :: '/' :: later := by
  unfold hasLead at lead
  split at lead
  · exact .inl ⟨_, rfl⟩
  · exact .inr (.inl rfl)
  · exact .inr (.inr ⟨_, rfl⟩)
  · cases lead

/-- What stands behind a slash adds its own components to those in front of it. -/
theorem components_append_slash {base : List Char} (nonempty : base ≠ []) (rest : List Char) :
    components (String.ofList (base ++ '/' :: rest)) =
      components (String.ofList base) ++ counted (pieces rest) := by
  have idle : ∀ body, counted ([] :: body) = counted body := fun _ => rfl
  unfold components
  rw [String.toList_ofList, String.toList_ofList]
  change _ ++ counted _ = (_ ++ counted _) ++ _
  cases lead : hasLead base with
  | false =>
      have still := (hasLead_append_slash nonempty rest).trans lead
      rw [ofText_of_not_hasLead lead, ofText_of_not_hasLead still, pieces_append_slash,
        counted_append]
      rfl
  | true =>
      obtain ⟨later, rfl⟩ | rfl | ⟨later, rfl⟩ := exists_of_hasLead lead
      · change _ ++ counted (pieces (later ++ '/' :: rest)) = _
        rw [pieces_append_slash, counted_append, ← List.append_assoc]
        rfl
      · change _ ++ counted ([] :: pieces rest) = _
        rw [idle]
        rfl
      · change _ ++ counted ([] :: pieces (later ++ '/' :: rest)) = _
        rw [idle, pieces_append_slash, counted_append, ← List.append_assoc]
        rfl

theorem components_append_root (rest : List Char) :
    components (String.ofList ('/' :: rest)) = .root :: counted (pieces rest) := by
  unfold components
  rw [String.toList_ofList]
  rfl

/-- A piece behind a slash is one more component. -/
theorem components_append_piece {base piece : List Char} (isPiece : IsPiece piece) :
    components (String.ofList (base ++ '/' :: piece)) =
      components (String.ofList (base ++ ['/'])) ++ [componentOf piece] := by
  cases base with
  | nil =>
      rw [List.nil_append, List.nil_append, components_append_root, components_append_root,
        isPiece.counted_eq]
      rfl
  | cons c later =>
      rw [components_append_slash (List.cons_ne_nil c later),
        components_append_slash (List.cons_ne_nil c later), isPiece.counted_eq]
      simp [pieces, counted, isIdle]

/-- A piece put behind a path is one more component. -/
theorem components_join_piece {base : String} {piece : List Char} (isPiece : IsPiece piece) :
    components (join base (String.ofList piece)) = components base ++ [componentOf piece] := by
  rw [join, isPiece.not_isAbsolute, if_neg Bool.false_ne_true]
  split
  · rename_i ends
    rcases Bool.or_eq_true_iff.mp ends with empty | slash
    · obtain rfl := String.isEmpty_iff.mp empty
      rw [String.empty_append, isPiece.components_eq]
      rfl
    · obtain ⟨front, parts⟩ := List.getLast?_eq_some_iff.mp (eq_of_beq slash)
      have written : base = String.ofList (front ++ ['/']) := by
        rw [← parts, String.ofList_toList]
      rw [written, ← String.ofList_append, List.append_assoc]
      exact components_append_piece isPiece
  · rename_i inner
    have nonempty : base.toList ≠ [] := by
      intro empty
      rw [String.toList_eq_nil_iff] at empty
      subst empty
      exact inner rfl
    have written : base ++ "/" ++ String.ofList piece =
        String.ofList (base.toList ++ '/' :: piece) := by
      rw [String.ext_iff]
      simp
    rw [written, components_append_slash nonempty, isPiece.counted_eq, String.ofList_toList]

/-- A file name put behind a path is one more component. -/
theorem components_join {base : String} {name : List Char} (isName : IsFileName name) :
    components (join base (String.ofList name)) =
      components base ++ [.name (String.ofList name)] := by
  rw [components_join_piece isName.isPiece, isName.componentOf_eq]

/-! ## Joining -/

theorem isAbsolute_append {left right : String} (nonempty : left ≠ "") :
    isAbsolute (left ++ right) = isAbsolute left := by
  unfold isAbsolute
  rw [String.toList_append]
  cases parts : left.toList with
  | nil => exact absurd (String.toList_eq_nil_iff.mp parts) nonempty
  | cons c rest => rfl

/-- A path with a slash at its end, unless it is empty. -/
def stretch (base : String) : String :=
  if base.isEmpty || base.toList.getLast? == some '/' then base else base ++ "/"

theorem join_eq (base path : String) :
    join base path = if isAbsolute path then path else stretch base ++ path := by
  unfold join stretch
  split
  · rfl
  · split <;> rfl

theorem stretch_ne_empty {base : String} (nonempty : base ≠ "") : stretch base ≠ "" := by
  unfold stretch
  split
  · exact nonempty
  · simp

theorem isAbsolute_stretch {base : String} (nonempty : base ≠ "") :
    isAbsolute (stretch base) = isAbsolute base := by
  unfold stretch
  split
  · rfl
  · exact isAbsolute_append nonempty

theorem stretch_append (front : String) {base : String} (nonempty : base ≠ "") :
    stretch (front ++ base) = front ++ stretch base := by
  have inner : base.toList ≠ [] := mt String.toList_eq_nil_iff.mp nonempty
  have last : (front ++ base).toList.getLast? = base.toList.getLast? := by
    rw [String.toList_append, List.getLast?_append, List.getLast?_eq_some_getLast inner,
      Option.some_or]
  have some : (front ++ base).isEmpty = base.isEmpty := by
    rw [Bool.eq_iff_iff, String.isEmpty_iff, String.isEmpty_iff]
    simp [nonempty]
  unfold stretch
  rw [last, some]
  split
  · rfl
  · rw [String.append_assoc]

theorem stretch_stretch (base : String) : stretch (stretch base) = stretch base := by
  by_cases nonempty : base = ""
  · subst nonempty
    rfl
  · unfold stretch
    split
    · rfl
    · rw [if_pos]
      simp

/-- Joining is associative. -/
theorem join_assoc (first second third : String) :
    join (join first second) third = join first (join second third) := by
  rw [join_eq _ third, join_eq second third, join_eq first second]
  by_cases absolute : isAbsolute third
  · rw [if_pos absolute, if_pos absolute, join_eq, if_pos absolute]
  · rw [if_neg absolute, if_neg absolute, join_eq first]
    by_cases nonempty : second = ""
    · subst nonempty
      change stretch (stretch first ++ "") ++ third = if isAbsolute ("" ++ third) then _ else _
      rw [String.empty_append, if_neg absolute, String.append_empty, stretch_stretch]
      rfl
    · rw [isAbsolute_append (stretch_ne_empty nonempty), isAbsolute_stretch nonempty]
      split
      · rfl
      · rw [stretch_append _ nonempty, String.append_assoc]

/-! ## Directory and file name -/

/-- The text in front of the file name; all of the path if it has none. -/
def directory (path : String) : String :=
  match fileName? path with
  | some _ => (parent? path).getD ""
  | none => path

theorem withFileName_eq_join (path name : String) :
    withFileName path name = join (directory path) name := by
  unfold withFileName directory
  cases fileName? path <;> rfl

theorem not_mem_body {cs piece : List Char} (member : piece ∈ (Parts.ofText cs).body) :
    '/' ∉ piece := by
  unfold Parts.ofText at member
  split at member
  · exact not_mem_of_mem_pieces member
  · exact absurd member List.not_mem_nil
  · rcases List.mem_cons.mp member with rfl | later
    · exact List.not_mem_nil
    · exact not_mem_of_mem_pieces later
  · exact not_mem_of_mem_pieces member

/-- A name among the components of a path is one of its pieces. -/
theorem mem_body_of_mem_components {path text : String}
    (member : Component.name text ∈ components path) :
    text.toList ∈ (Parts.ofText path.toList).body ∧ isIdle text.toList = false ∧
      componentOf text.toList = .name text := by
  rcases List.mem_append.mp member with inLead | inBody
  · unfold Parts.leadComponents at inLead
    split at inLead <;> simp at inLead
  · obtain ⟨piece, kept, same⟩ := List.mem_map.mp inBody
    obtain ⟨inside, counts⟩ := List.mem_filter.mp kept
    have plain : piece = text.toList := by
      unfold componentOf at same
      split at same
      · cases same
      · cases same
        rw [String.toList_ofList]
    subst plain
    exact ⟨inside, by simpa using counts, same⟩

theorem not_mem_of_mem_components {path text : String}
    (member : Component.name text ∈ components path) : '/' ∉ text.toList :=
  not_mem_body (mem_body_of_mem_components member).1

theorem not_mem_fileStem? {path stem : String} (named : fileStem? path = some stem) :
    '/' ∉ stem.toList := by
  obtain ⟨name, isName, rfl⟩ := Option.map_eq_some_iff.mp named
  have noSlash : '/' ∉ name.toList := by
    unfold fileName? at isName
    split at isName
    · rename_i last
      obtain rfl := Option.some.inj isName
      exact not_mem_of_mem_components (List.mem_of_getLast? last)
    · cases isName
  rw [String.toList_ofList]
  intro inStem
  unfold splitName at inStem
  dsimp only at inStem
  split at inStem
  · exact noSlash (List.mem_of_mem_take inStem)
  · exact noSlash inStem

/-- The text up to the last slash. -/
def upToSlash (path : String) : String :=
  String.ofList (path.toList.reverse.dropWhile (· != '/')).reverse

/-- The text behind the last slash. -/
def behindSlash (path : String) : String :=
  String.ofList (path.toList.reverse.takeWhile (· != '/')).reverse

theorem not_mem_behindSlash (path : String) : '/' ∉ (behindSlash path).toList := by
  unfold behindSlash
  rw [String.toList_ofList, List.mem_reverse]
  intro member
  exact absurd (List.mem_takeWhile_imp member) (by decide)

theorem upToSlash_append_behindSlash (path : String) :
    upToSlash path ++ behindSlash path = path := by
  unfold upToSlash behindSlash
  rw [← String.ofList_append, ← List.reverse_append, List.takeWhile_append_dropWhile,
    List.reverse_reverse, String.ofList_toList]

theorem stretch_upToSlash (path : String) : stretch (upToSlash path) = upToSlash path := by
  have ends : ((upToSlash path).isEmpty || (upToSlash path).toList.getLast? == some '/') =
      true := by
    unfold upToSlash
    rw [String.toList_ofList, List.getLast?_reverse]
    cases rest : path.toList.reverse.dropWhile (· != '/') with
    | nil => rfl
    | cons c later =>
        have slash := List.head?_dropWhile_not (· != '/') path.toList.reverse
        rw [rest] at slash
        simpa using slash
  rw [stretch, if_pos ends]

/-- What is written behind a path without a slash belongs to its last piece. -/
theorem append_eq_join (path : String) {suffix : String} (noSlash : '/' ∉ suffix.toList) :
    path ++ suffix = join (upToSlash path) (behindSlash path ++ suffix) := by
  have clear : '/' ∉ (behindSlash path ++ suffix).toList := by
    rw [String.toList_append, List.mem_append]
    exact not_or.mpr ⟨not_mem_behindSlash path, noSlash⟩
  rw [join_eq, isAbsolute_eq_false clear, if_neg Bool.false_ne_true, stretch_upToSlash,
    ← String.append_assoc, upToSlash_append_behindSlash]

end Path

end Bindery
