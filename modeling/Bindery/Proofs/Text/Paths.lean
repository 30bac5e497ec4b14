import Bindery.Proofs.Text.Brackets
import Bindery.Proofs.Text.ScopeInsertion
import Bindery.Proofs.Text.Words

/-!
# Paths of identifiers

A path of identifiers is known by the last of them, which is its simple name: wherever the path
stands as a whole word, the simple name does too, since a colon or nothing is in front of it.
-/

set_option autoImplicit false

namespace Bindery

namespace Chars

theorem dropCopies_of_not_mem {head cs : List Char} {c : Char} (inside : c ∈ head)
    (outside : c ∉ cs) : dropCopies head cs = cs := by
  rw [dropCopies, dif_neg]
  rintro ⟨-, starts⟩
  exact outside ((List.isPrefixOf_iff_prefix.mp starts).subset inside)

/-- An identifier stands in a text as a whole word if and only if it is one of its words. -/
theorem containsWord_iff_mem_words {word : List Char} (nonempty : word ≠ [])
    (ident : ∀ c ∈ word, isIdentChar c = true) (cs : List Char) :
    containsWord cs word = true ↔ word ∈ words cs := by
  rw [containsWord, findWord_eq_runPlaces nonempty ident, runPlaces, words]
  simp [List.filter_eq_nil_iff]

/-- No word that may stand in front of a type's name is taken from a text without blanks. -/
theorem foldl_dropCopies_elaborations {cs : List Char} (noSpace : ' ' ∉ cs) :
    elaborations.foldl (fun text word => dropCopies word text) cs = cs := by
  have kept : ∀ word ∈ elaborations, dropCopies word cs = cs := fun word member =>
    dropCopies_of_not_mem ((by decide : ∀ word ∈ elaborations, ' ' ∈ word) word member) noSpace
  have each : ∀ heads : List (List Char), (∀ word ∈ heads, dropCopies word cs = cs) →
      heads.foldl (fun text word => dropCopies word text) cs = cs := by
    intro heads
    induction heads with
    | nil => exact fun _ => rfl
    | cons word heads ih =>
        intro all
        rw [List.foldl_cons, all word List.mem_cons_self]
        exact ih fun other member => all other (List.mem_cons_of_mem _ member)
  exact each elaborations kept

theorem simpleName_intercalate {scopes : List (List Char)} {last : List Char}
    (components : ∀ cs ∈ scopes ++ [last], IsComponent cs) :
    simpleName ([':', ':'].intercalate (scopes ++ [last])) = last := by
  have shown : ∀ c ∈ [':', ':'].intercalate (scopes ++ [last]), isBlank c = false := by
    intro c member
    rcases mem_intercalate member with separator | ⟨cs, isPart, inside⟩
    · obtain rfl : c = ':' := by simpa using separator
      decide
    · exact (components cs isPart).shown c inside
  have noSpace : ' ' ∉ [':', ':'].intercalate (scopes ++ [last]) := fun member =>
    absurd (shown ' ' member) (by decide)
  have trimmed : trim ([':', ':'].intercalate (scopes ++ [last])) =
      [':', ':'].intercalate (scopes ++ [last]) :=
    trim_eq_self (fun c first => shown c (List.mem_of_mem_head? first))
      (fun c ends => shown c (List.mem_of_mem_getLast? ends))
  have split : splitScope ([':', ':'].intercalate (scopes ++ [last])) = scopes ++ [last] :=
    splitScope_intercalate (List.concat_ne_nil last scopes) fun cs member =>
      (components cs member).isNamePart
  have bare : stripTemplateArgs (last ++ argumentList none) = last :=
    (components last (by simp)).stripTemplateArgs_append nofun
  rw [argumentList, List.append_nil] at bare
  rw [simpleName, trimmed, foldl_dropCopies_elaborations noSpace, split, List.getLast?_concat]
  exact bare

end Chars

namespace Text

theorem containsWord_iff_mem_words {s word : String} (identifier : IsIdentifier word) :
    containsWord s word = true ↔ word ∈ words s := by
  have nonempty : word.toList ≠ [] := by simpa using identifier.nonempty
  rw [containsWord, Chars.containsWord_iff_mem_words nonempty identifier.plain, words,
    List.mem_map]
  constructor
  · exact fun member => ⟨word.toList, member, String.ofList_toList⟩
  · rintro ⟨run, member, rfl⟩
    rwa [String.toList_ofList]

theorem containsWord_iff_findWord_ne_nil {s word : String} :
    containsWord s word = true ↔ findWord s word ≠ [] := by
  simp [containsWord, Chars.containsWord, findWord]

/-- A name that is written as identifiers between `::`, the last one told apart. -/
structure IsPath (name : String) (scopes : List String) (last : String) : Prop where
  whole : name = joinScope (scopes ++ [last])
  identifiers : ∀ part ∈ scopes ++ [last], IsIdentifier part

namespace IsPath

variable {name last : String} {scopes : List String}

theorem identifier (path : IsPath name scopes last) : IsIdentifier last :=
  path.identifiers last (by simp)

theorem simpleName_eq (path : IsPath name scopes last) : simpleName name = last := by
  have components : ∀ cs ∈ scopes.map String.toList ++ [last.toList], Chars.IsComponent cs := by
    intro cs member
    rw [← List.map_singleton, ← List.map_append] at member
    obtain ⟨part, isPart, rfl⟩ := List.mem_map.mp member
    exact (path.identifiers part isPart).isComponent
  rw [path.whole, simpleName, toList_joinScope, List.map_append, List.map_singleton,
    Chars.simpleName_intercalate components, String.ofList_toList]

/-- What is in front of the last identifier ends in a colon. -/
theorem exists_front (path : IsPath name scopes last) :
    ∃ front, name.toList = front ++ last.toList ∧
      (front = [] ∨ front.getLast? = some ':') := by
  rw [path.whole]
  cases scopes with
  | nil => exact ⟨[], by simp [joinScope], .inl rfl⟩
  | cons scope scopes =>
      refine ⟨(joinScope (scope :: scopes)).toList ++ [':', ':'], ?_, .inr (by simp)⟩
      have parts : joinScope (scope :: scopes ++ [last]) =
          joinScope (scope :: scopes) ++ "::" ++ joinScope [last] :=
        String.intercalate_append_of_ne_nil (List.cons_ne_nil _ _) (List.cons_ne_nil _ _)
      rw [parts]
      simp [joinScope]

/-- Where a path stands as a whole word, its last identifier does. -/
theorem containsWord_last (path : IsPath name scopes last) {s : String}
    (contains : containsWord s name = true) : containsWord s last = true := by
  obtain ⟨-, front, back, whole, left, right⟩ := hasWord_of_containsWord contains
  obtain ⟨scope, parts, ends⟩ := path.exists_front
  have boundary : Chars.isBoundary (front ++ scope).getLast? = true := by
    rcases ends with rfl | colon
    · rwa [List.append_nil]
    · rw [List.getLast?_append, colon, Option.some_or]
      decide
  have nonempty : last.toList ≠ [] := by simpa using path.identifier.nonempty
  have stands : Chars.IsWordAt s.toList last.toList (front ++ scope).length := by
    refine ⟨front ++ scope, back, ?_, rfl, boundary, right⟩
    rw [whole, parts, ← List.append_assoc]
  exact containsWord_iff_exists_mem.mpr
    ⟨_, Chars.mem_findWord_of_isWordAt nonempty path.identifier.plain stands⟩

end IsPath

end Text

end Bindery
