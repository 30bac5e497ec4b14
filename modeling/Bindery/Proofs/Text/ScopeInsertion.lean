import Bindery.Proofs.Text.FreeNames
import Bindery.Proofs.Text.NameUses

/-!
# Scopes that are inserted

The simple name of a use may stand at the start of a partial name of another one, and only one of
the two edits is carried out.  Both begin at the same place, since a partial name has a `::` in
front of each name inside of it; so whichever is carried out puts a scope in front of the name.
-/

set_option autoImplicit false

namespace Bindery

namespace Chars

/-! ## Paths of identifiers -/

/-- A text that ends at a boundary does not end inside of a word. -/
theorem not_isPrefix_of_isBoundary {word front : List Char}
    (ident : ∀ c ∈ word, isIdentChar c = true) (nonempty : front ≠ [])
    (boundary : isBoundary front.getLast? = true) : ¬ front <+: word := by
  intro starts
  obtain ⟨last, isLast⟩ := Option.isSome_iff_exists.mp (List.getLast?_isSome.mpr nonempty)
  have known := ident last (starts.subset (List.mem_of_getLast? isLast))
  simp [isLast, isBoundary, known] at boundary

/-- Of two words that begin at one place the identifier is not the longer one. -/
theorem isPrefix_of_isBoundary {word name back rest : List Char}
    (ident : ∀ c ∈ word, isIdentChar c = true) (boundary : isBoundary rest.head? = true)
    (same : word ++ back = name ++ rest) : word <+: name := by
  rcases List.append_eq_append_iff.mp same with ⟨more, longer, -⟩ | ⟨more, longer, cut⟩
  · exact ⟨more, longer.symm⟩
  · cases more with
    | nil => simp [longer]
    | cons c more =>
        have own := ident c (by simp [longer])
        simp [cut, isBoundary, own] at boundary

/-- A word that starts inside of a path has a `::` in front of it. -/
theorem isSuffix_of_intercalate {words : List (List Char)}
    (ident : ∀ word ∈ words, ∀ c ∈ word, isIdentChar c = true) {front back : List Char} {c : Char}
    (own : isIdentChar c = true) (nonempty : front ≠ [])
    (boundary : isBoundary front.getLast? = true)
    (whole : [':', ':'].intercalate words = front ++ c :: back) : [':', ':'] <:+ front := by
  have colon : ':' ≠ c := by
    rintro rfl
    exact absurd own (by decide)
  induction words generalizing front with
  | nil =>
      rw [List.intercalate_nil] at whole
      simp at whole
  | cons first others ih =>
      obtain ⟨here, later⟩ := List.forall_mem_cons.mp ident
      have longer := not_isPrefix_of_isBoundary here nonempty boundary
      cases others with
      | nil =>
          rw [List.intercalate_singleton] at whole
          exact absurd ⟨_, whole.symm⟩ longer
      | cons second others =>
          rw [List.intercalate_cons_cons, List.append_assoc] at whole
          rcases List.append_eq_append_iff.mp whole with ⟨rest, rfl, cut⟩ | ⟨rest, cut, -⟩
          · match rest with
            | [] => exact absurd (List.head_eq_of_cons_eq cut) colon
            | [d] => exact absurd (List.head_eq_of_cons_eq (List.tail_eq_of_cons_eq cut)) colon
            | d :: e :: behind =>
                obtain ⟨rfl, rfl, joined⟩ : ':' = d ∧ ':' = e ∧
                    [':', ':'].intercalate (second :: others) = behind ++ c :: back := by
                  simpa using cut
                cases behind with
                | nil => exact List.suffix_append first _
                | cons f behind =>
                    have split : first ++ ':' :: ':' :: f :: behind =
                        first ++ [':', ':'] ++ f :: behind := by simp
                    rw [split] at boundary ⊢
                    rw [List.getLast?_append_cons] at boundary
                    have ends := ih later (List.cons_ne_nil f behind) boundary joined
                    exact List.suffix_append_of_suffix ends
          · exact absurd ⟨rest, cut.symm⟩ longer

theorem endsInScope_of_isSuffix {cs : List Char} (ends : [':', ':'] <:+ cs) :
    endsInScope cs = true := by
  obtain ⟨front, rfl⟩ := ends
  rw [endsInScope_eq, List.reverse_append]
  rfl

end Chars

/-! ## Pieces -/

/-- A part of a text that is copied from the source or inserted into it. -/
inductive Piece where
  | copied (text : List Char)
  | inserted (text : List Char)

namespace Piece

/-- What a piece takes from the source. -/
def source : Piece → List Char
  | copied text => text
  | inserted _ => []

/-- What a piece adds to the result. -/
def written : Piece → List Char
  | copied text => text
  | inserted text => text

end Piece

/-- Whether an edit puts a text in front of what it replaces. -/
def Edit.Prepends (source : List Char) (edit : Edit) (text : List Char) : Prop :=
  edit.text = text ++ (source.take edit.stop).drop edit.start

/-- Edits that only put texts in front of what they replace cut the result into pieces. -/
theorem Edits.FitsFrom.exists_pieces {source : List Char} {cursor : Nat} {edits : List Edit}
    (fits : FitsFrom source cursor edits) {allowed : List Char → Prop}
    (prepends : ∀ edit ∈ edits, ∃ text, allowed text ∧ edit.Prepends source text) :
    ∃ pieces : List Piece,
      pieces.flatMap Piece.source = source.drop cursor ∧
      pieces.flatMap Piece.written = spliceFrom source cursor edits ∧
      (∀ text, Piece.inserted text ∈ pieces → allowed text) ∧
      ∀ edit ∈ edits, ∃ before text after,
        pieces = before ++ .inserted text ::
          .copied ((source.take edit.stop).drop edit.start) :: after ∧
        before.flatMap Piece.source = (source.take edit.start).drop cursor ∧ allowed text := by
  induction edits generalizing cursor with
  | nil =>
      refine ⟨[.copied (source.drop cursor)], by simp [Piece.source], ?_, by simp, nofun⟩
      simp [Piece.written, spliceFrom]
  | cons edit later ih =>
      obtain ⟨ahead, forward, behind⟩ := fits
      obtain ⟨⟨text, isAllowed, replaced⟩, prependsLater⟩ := List.forall_mem_cons.mp prepends
      obtain ⟨pieces, taken, written, inserted, reached⟩ := ih behind prependsLater
      have inside := behind.le_length
      have upTo : ∀ stop, edit.stop ≤ stop →
          (source.take edit.start).drop cursor ++ ((source.take edit.stop).drop edit.start ++
            (source.take stop).drop edit.stop) = (source.take stop).drop cursor := by
        intro stop onward
        rw [Chars.stretch_append (Nat.le_of_lt forward) onward inside,
          Chars.stretch_append ahead (by omega) (by omega)]
      refine ⟨.copied ((source.take edit.start).drop cursor) :: .inserted text ::
        .copied ((source.take edit.stop).drop edit.start) :: pieces, ?_, ?_, ?_, ?_⟩
      · have whole := upTo source.length inside
        rw [List.take_length] at whole
        simpa [Piece.source, taken] using whole
      · have parts : edit.text = text ++ (source.take edit.stop).drop edit.start := replaced
        simp [Piece.written, spliceFrom, written, parts]
      · intro other isPiece
        simp only [List.mem_cons, Piece.inserted.injEq, reduceCtorEq, false_or] at isPiece
        rcases isPiece with rfl | isLater
        · exact isAllowed
        · exact inserted other isLater
      · intro other member
        rcases List.mem_cons.mp member with rfl | isLater
        · exact ⟨[.copied ((source.take other.start).drop cursor)], text, pieces, rfl,
            by simp [Piece.source], isAllowed⟩
        · obtain ⟨before, scope, after, rfl, gone, known⟩ := reached other isLater
          have onward := behind.le_start other isLater
          refine ⟨.copied ((source.take edit.start).drop cursor) :: .inserted text ::
            .copied ((source.take edit.stop).drop edit.start) :: before, scope, after, rfl, ?_,
              known⟩
          simpa [Piece.source, gone] using upTo other.start onward

/-! ## Uses of scoped names -/

theorem Text.IsIdentifier.isComponent {name : String} (identifier : IsIdentifier name) :
    IsComponent name := by
  have solid : ∀ c ∈ name.toList, Chars.isSolid c = true := fun c member =>
    Chars.isSolid_of_isIdentChar (identifier.plain c member)
  have other : ∀ d, Chars.isIdentChar d = false → ∀ c ∈ name.toList, c ≠ d := by
    rintro d bracket c member rfl
    have known := identifier.plain c member
    rw [bracket] at known
    cases known
  constructor
  · simpa using identifier.nonempty
  · intro c member
    exact Chars.isBlank_eq_false_of_isIdentChar (identifier.plain c member)
  · intro member
    exact other ':' (by decide) ':' member rfl
  · intro c member
    simp [Chars.angleNesting, other '<' (by decide) c member, other '>' (by decide) c member]
  · intro c member
    simp [Chars.parenNesting, other '(' (by decide) c member, other ')' (by decide) c member]

namespace NameUse

/-- Whether a use is of an identifier that stands in a scope. -/
structure IsScoped (use : NameUse) : Prop where
  named : Text.IsIdentifier use.simple
  inside : ∃ scopes, scopes ≠ [] ∧ (∀ scope ∈ scopes, Text.IsIdentifier scope) ∧
    use.qualified = Text.joinScope (scopes ++ [use.simple])

/-- A proper part of a full name that ends in `::`. -/
def IsScopeOf (scope full : List Char) : Prop :=
  [':', ':'] <:+ scope ∧ ∃ rest, rest ≠ [] ∧ full = scope ++ rest

/-- A path of identifiers that ends a full name, behind a scope. -/
structure EndsBehindScope (name full : String) : Prop where
  path : ∃ words : List (List Char), (∀ word ∈ words, ∀ c ∈ word, Chars.isIdentChar c = true) ∧
    name.toList = [':', ':'].intercalate words
  behind : ∃ scope, [':', ':'] <:+ scope ∧ full.toList = scope ++ name.toList

theorem IsScoped.endsBehindScope {use : NameUse} (known : use.IsScoped) {name : String}
    (isName : name ∈ use.names) : EndsBehindScope name use.qualified := by
  obtain ⟨scopes, nonempty, identifiers, full⟩ := known.inside
  have all : ∀ part ∈ scopes ++ [use.simple], Text.IsIdentifier part := by
    intro part member
    rcases List.mem_append.mp member with isScope | isLast
    · exact identifiers part isScope
    · rw [List.mem_singleton.mp isLast]
      exact known.named
  have behind : ∀ front rest, front ≠ [] → rest ≠ [] → scopes ++ [use.simple] = front ++ rest →
      EndsBehindScope (Text.joinScope rest) use.qualified := by
    intro front rest some others parts
    rw [parts] at all full
    refine ⟨⟨_, ?_, Text.toList_joinScope _⟩, ?_⟩
    · intro word isWord
      obtain ⟨part, member, rfl⟩ := List.mem_map.mp isWord
      exact (all part (List.mem_append_right front member)).plain
    · rw [full, Text.toList_joinScope, Text.toList_joinScope, List.map_append]
      exact Chars.exists_intercalate_append (by simpa using some) (by simpa using others)
  rcases List.mem_cons.mp isName with rfl | isPartial
  · have alone : Text.joinScope [use.simple] = use.simple := String.intercalate_singleton
    rw [← alone]
    exact behind scopes [use.simple] nonempty (by simp) rfl
  · have split : Text.splitScope use.qualified = scopes ++ [use.simple] := by
      rw [full]
      exact Text.splitScope_joinScope (by simp) fun part member =>
        (all part member).isComponent.isNamePart
    obtain ⟨front, rest, parts, some, enough, rfl⟩ := (mem_partialNames_iff split).mp isPartial
    exact behind front rest some (List.ne_nil_of_length_pos (by omega)) parts

/-- An edit for a scoped use puts a scope of the full name in front. -/
theorem exists_prepends {literal : List Char} {uses : List NameUse}
    (known : ∀ use ∈ uses, use.IsScoped) {edit : Edit} (isOffered : edit ∈ offered literal uses) :
    ∃ scope, (∃ use ∈ uses, IsScopeOf scope use.qualified.toList) ∧
      edit.Prepends literal scope := by
  obtain ⟨use, member, name, isName, place, free, rfl⟩ := mem_offered_iff.mp isOffered
  obtain ⟨scope, ends, full⟩ := ((known use member).endsBehindScope isName).behind
  obtain ⟨nonempty, front, back, rfl, rfl, -, -⟩ := free.isWordAt
  refine ⟨scope, ⟨use, member, ends, name.toList, nonempty, full⟩, ?_⟩
  rw [Edit.Prepends, full, List.append_assoc, ← String.length_toList, List.drop_take,
    List.drop_left, Nat.add_sub_cancel_left, List.take_left]

/-- A name that is written out over an identifier that no `::` precedes begins where it does. -/
theorem length_eq_of_overlaps {word : List Char} (nonempty : word ≠ [])
    (ident : ∀ c ∈ word, Chars.isIdentChar c = true) {words : List (List Char)}
    (idents : ∀ word ∈ words, ∀ c ∈ word, Chars.isIdentChar c = true)
    {front back others rest : List Char}
    (same : front ++ (word ++ back) = others ++ ([':', ':'].intercalate words ++ rest))
    (left : Chars.isBoundary front.getLast? = true)
    (leftOther : Chars.isBoundary others.getLast? = true)
    (free : Chars.endsInScope front = false)
    (before : others.length < front.length + word.length)
    (behind : front.length < others.length + ([':', ':'].intercalate words).length) :
    others.length = front.length := by
  rcases List.append_eq_append_iff.mp same with ⟨inner, rfl, cut⟩ | ⟨inner, rfl, cut⟩
  · -- The path would begin inside of the identifier.
    cases inner with
    | nil => rw [List.append_nil]
    | cons c inner =>
        rw [List.getLast?_append_cons] at leftOther
        rw [List.length_append] at before
        have short : (c :: inner).length ≤ word.length := by omega
        have starts : c :: inner <+: word :=
          List.prefix_of_prefix_length_le ⟨_, cut.symm⟩ (List.prefix_append word back) short
        exact absurd starts
          (Chars.not_isPrefix_of_isBoundary ident (List.cons_ne_nil c inner) leftOther)
  · -- The identifier would begin inside of the path, where a scope precedes it.
    cases inner with
    | nil => rw [List.append_nil]
    | cons c inner =>
        rw [List.getLast?_append_cons] at left
        rw [List.length_append] at behind
        have short : (c :: inner).length < ([':', ':'].intercalate words).length := by omega
        obtain ⟨d, word, rfl⟩ := List.exists_cons_of_ne_nil nonempty
        have starts : c :: inner ++ [d] <+: [':', ':'].intercalate words := by
          have front : c :: inner ++ [d] <+: c :: inner ++ (d :: word ++ back) :=
            (List.prefix_append_right_inj (c :: inner)).mpr ⟨word ++ back, rfl⟩
          rw [← cut] at front
          apply List.prefix_of_prefix_length_le front (List.prefix_append _ _)
          rw [List.length_append, List.length_singleton]
          exact short
        obtain ⟨tail, whole⟩ := starts
        rw [List.append_assoc, List.singleton_append] at whole
        have colons := Chars.isSuffix_of_intercalate idents (ident d List.mem_cons_self)
          (List.cons_ne_nil c inner) left whole.symm
        have scope : Chars.endsInScope (others ++ c :: inner) = true :=
          Chars.endsInScope_of_isSuffix (List.suffix_append_of_suffix colons)
        rw [free] at scope
        cases scope

/-- Where a simple name stands that no `::` precedes, a name that it begins is written out. -/
theorem exists_carried_at {literal : List Char} {uses : List NameUse}
    (known : ∀ use ∈ uses, use.IsScoped) {carried : List Edit}
    (carries : Edits.Carries literal (offered literal uses) carried) {use : NameUse}
    (member : use ∈ uses) {front back : List Char}
    (whole : literal = front ++ use.simple.toList ++ back)
    (left : Chars.isBoundary front.getLast? = true) (right : Chars.isBoundary back.head? = true)
    (outside : Chars.endsInScope front = false) :
    ∃ (full name : String) (rest : List Char), use.simple.toList <+: name.toList ∧
      literal = front ++ name.toList ++ rest ∧
      ⟨front.length, front.length + name.length, full.toList⟩ ∈ carried := by
  obtain ⟨nonempty, ident, -⟩ := (known use member).named
  have some : use.simple.toList ≠ [] := by simpa using nonempty
  have free : Chars.FreeAt literal use.simple front.length := by
    refine ⟨Chars.mem_findWord_of_isWordAt some ident ⟨front, back, whole, rfl, left, right⟩, ?_⟩
    rw [Chars.precededByScope, whole, List.append_assoc, List.take_left]
    exact outside
  -- Some carried edit overlaps that of the name, and it begins at the same place.
  obtain ⟨other, isCarried, met⟩ := carries.covers _
    (mem_offered_iff.mpr ⟨use, member, use.simple, List.mem_cons_self, _, free, rfl⟩)
  obtain ⟨owner, isUse, name, isName, place, freeName, rfl⟩ :=
    mem_offered_iff.mp (carries.among other isCarried)
  obtain ⟨words, idents, path⟩ := ((known owner isUse).endsBehindScope isName).path
  obtain ⟨-, others, rest, cut, rfl, leftOther, rightOther⟩ := freeName.isWordAt
  obtain ⟨behind, before⟩ : front.length < others.length + name.length ∧
      others.length < front.length + use.simple.length := by
    simpa [Edit.overlaps] using met
  have same : front ++ (use.simple.toList ++ back) = others ++ (name.toList ++ rest) := by
    rw [← List.append_assoc, ← List.append_assoc, ← whole, ← cut]
  have start : others.length = front.length := by
    rw [← String.length_toList, path] at behind
    rw [← String.length_toList] at before
    rw [path] at same
    exact length_eq_of_overlaps some ident idents same left leftOther outside before behind
  obtain ⟨rfl, tails⟩ := List.append_inj same start.symm
  exact ⟨owner.qualified, name, rest, Chars.isPrefix_of_isBoundary ident rightOther tails, cut,
    isCarried⟩

/-! ## Scopes are all that is added -/

/-- A text whose pieces come from a literal in their order, what else is in it scopes of the uses,
so that each free name of a use has a scope in front. -/
structure InsertsScopes (uses : List NameUse) (literal result : List Char)
    (pieces : List Piece) : Prop where
  source : pieces.flatMap Piece.source = literal
  written : pieces.flatMap Piece.written = result
  scopes : ∀ text, Piece.inserted text ∈ pieces → ∃ use ∈ uses, IsScopeOf text use.qualified.toList
  qualifies : ∀ use ∈ uses, ∀ front back, literal = front ++ use.simple.toList ++ back →
    Chars.isBoundary front.getLast? = true → Chars.isBoundary back.head? = true →
      Chars.endsInScope front = false → ∃ before after, pieces = before ++ after ∧
        before.flatMap Piece.source = front ∧
        Chars.endsInScope (before.flatMap Piece.written) = true ∧
        use.simple.toList <+: after.flatMap Piece.written

theorem exists_insertsScopes (literal : String) {uses : List NameUse}
    (known : ∀ use ∈ uses, use.IsScoped) :
    ∃ pieces, InsertsScopes uses literal.toList (qualifyAll literal uses).toList pieces := by
  have within : ∀ edit ∈ offered literal.toList uses, edit.IsWithin literal.toList :=
    fun edit isOffered => isWithin_of_mem_offered isOffered
  obtain ⟨carried, carries, applied⟩ := Edits.exists_carries within
  obtain ⟨pieces, source, written, scopes, reached⟩ := carries.fits.exists_pieces
    fun edit isCarried => exists_prepends known (carries.among edit isCarried)
  refine ⟨pieces, source, ?_, scopes, ?_⟩
  · rw [written, toList_qualifyAll, applied]
  · intro use member front back whole left right outside
    obtain ⟨full, name, rest, stands, cut, isCarried⟩ :=
      exists_carried_at known carries member whole left right outside
    obtain ⟨first, text, last, parts, gone, -, -, ends, -⟩ := reached _ isCarried
    have replaced : (literal.toList.take (front.length + name.length)).drop front.length =
        name.toList := by
      rw [cut, List.append_assoc, ← String.length_toList, List.drop_take, List.drop_left,
        Nat.add_sub_cancel_left, List.take_left]
    refine ⟨first ++ [.inserted text], .copied name.toList :: last, ?_, ?_, ?_, ?_⟩
    · rw [parts, replaced, List.append_assoc, List.singleton_append]
    · rw [List.flatMap_append, gone, List.drop_zero, cut, List.append_assoc, List.take_left]
      exact List.append_nil front
    · rw [List.flatMap_append]
      apply Chars.endsInScope_of_isSuffix
      apply List.suffix_append_of_suffix
      simpa [Piece.written] using ends
    · exact stands.trans (List.prefix_append name.toList _)

/-- One use is written out as a part of another one, and on its own. -/
theorem exists_insertsScopes_competing :
    (∀ use ∈ [NameUse.mk "c" "a::b::c", ⟨"b", "cv::b"⟩], use.IsScoped) ∧
      ∃ pieces, InsertsScopes [⟨"c", "a::b::c"⟩, ⟨"b", "cv::b"⟩] "b::c(b)".toList
        "a::b::c(cv::b)".toList pieces := by
  have known : ∀ use ∈ [NameUse.mk "c" "a::b::c", ⟨"b", "cv::b"⟩], use.IsScoped := by
    simp only [List.forall_mem_cons]
    exact ⟨⟨by decide, ["a", "b"], by decide, by decide, by decide⟩,
      ⟨by decide, ["cv"], by decide, by decide, by decide⟩, nofun⟩
  have accepted : (Edits.empty.pushAll (offered "b::c(b)".toList
      [⟨"c", "a::b::c"⟩, ⟨"b", "cv::b"⟩])).1.toList =
        [⟨0, 4, "a::b::c".toList⟩, ⟨5, 6, "cv::b".toList⟩] := by
    decide +kernel
  have written : (qualifyAll "b::c(b)" [⟨"c", "a::b::c"⟩, ⟨"b", "cv::b"⟩]).toList =
      "a::b::c(cv::b)".toList := by
    rw [toList_qualifyAll, Edits.apply_of_pairwise _ accepted (by decide)]
    rfl
  have inserts := exists_insertsScopes "b::c(b)" known
  rw [written] at inserts
  exact ⟨known, inserts⟩

end NameUse

end Bindery
