import Bindery.Proofs.Text.Arguments
import Bindery.Proofs.Text.Trimming

/-!
# Reading back scoped names

A name that is written as components between `::`, with or without template arguments at its end, is
split into these components again.
-/

set_option autoImplicit false

namespace Bindery

namespace Chars

/-! ## Components -/

/-- A text that stands for one component of a name: not empty, without white space, colons and
brackets. -/
structure IsComponent (cs : List Char) : Prop where
  nonempty : cs ≠ []
  shown : ∀ c ∈ cs, isBlank c = false
  colons : ':' ∉ cs
  angles : ∀ c ∈ cs, angleNesting c = 0
  parens : ∀ c ∈ cs, parenNesting c = 0

theorem isComponent_iff {cs : List Char} :
    cs ≠ [] ∧ cs.any isBlank = false ∧ ':' ∉ cs ∧ cs.all (angleNesting · == 0) = true ∧
      cs.all (parenNesting · == 0) = true ↔ IsComponent cs := by
  simp only [List.any_eq_false, List.all_eq_true, beq_iff_eq, Bool.not_eq_true]
  exact ⟨fun ⟨nonempty, shown, colons, angles, parens⟩ =>
      ⟨nonempty, shown, colons, angles, parens⟩,
    fun ⟨nonempty, shown, colons, angles, parens⟩ =>
      ⟨nonempty, shown, colons, angles, parens⟩⟩

instance (cs : List Char) : Decidable (IsComponent cs) :=
  decidable_of_iff _ isComponent_iff

theorem IsComponent.neutral {cs : List Char} (component : IsComponent cs) :
    ∀ c ∈ cs, nesting c = 0 := by
  intro c member
  rw [nesting_eq_add, component.angles c member, component.parens c member]
  rfl

theorem IsComponent.plain {cs : List Char} (component : IsComponent cs) : '<' ∉ cs := by
  intro member
  have level := component.angles '<' member
  exact absurd level (by decide)

theorem IsComponent.trim_eq {cs : List Char} (component : IsComponent cs) : trim cs = cs :=
  trim_eq_self (fun c first => component.shown c (List.mem_of_mem_head? first))
    (fun c last => component.shown c (List.mem_of_mem_getLast? last))

/-! ## Splitting at scopes -/

theorem scopePieces_ne_nil (depth : Int) (cs : List Char) : scopePieces depth cs ≠ [] := by
  fun_induction scopePieces depth cs with
  | case1 => simp
  | case2 => simp
  | case3 => simp
  | case4 depth c d rest other ih => cases pieces : scopePieces (depth + nesting c) (d :: rest) <;>
      simp [consFirst]

theorem scopePieces_cons {depth : Int} {c : Char} (kept : ¬ (c = ':' ∧ depth = 0))
    (rest : List Char) :
    scopePieces depth (c :: rest) = (scopePieces (depth + nesting c) rest).modifyHead (c :: ·) := by
  cases rest with
  | nil => rfl
  | cons d rest =>
      rw [scopePieces, if_neg fun ⟨colon, level, _⟩ => kept ⟨colon, level⟩]
      exact consFirst_eq (scopePieces_ne_nil _ _)

/-- A text whose colons are all inside brackets stays in one piece. -/
theorem scopePieces_append {depth : Int} {cs : List Char}
    (inside : ∀ front, front ++ [':'] <+: cs → depth + depthOf nesting front ≠ 0)
    (rest : List Char) :
    scopePieces depth (cs ++ rest) =
      (scopePieces (depth + depthOf nesting cs) rest).modifyHead (cs ++ ·) := by
  induction cs generalizing depth with
  | nil =>
      rw [depthOf_nil, Int.add_zero, List.nil_append]
      cases scopePieces depth rest <;> rfl
  | cons c cs ih =>
      have kept : ¬ (c = ':' ∧ depth = 0) := by
        rintro ⟨rfl, rfl⟩
        exact inside [] (List.prefix_append [':'] cs) rfl
      have later : ∀ front, front ++ [':'] <+: cs →
          depth + nesting c + depthOf nesting front ≠ 0 := by
        intro front colon
        have here := inside (c :: front) (List.prefix_cons_inj c |>.mpr colon)
        rw [depthOf_cons] at here
        omega
      rw [List.cons_append, scopePieces_cons kept, ih later, depthOf_cons, Int.add_assoc]
      cases scopePieces (depth + (nesting c + depthOf nesting cs)) rest <;> rfl

/-! ## Parts of a name -/

/-- A text that can stand between two `::`: without white space around it, brackets balanced, and
no colon outside brackets.  It may be empty. -/
structure IsNamePart (cs : List Char) : Prop where
  trimmed : trim cs = cs
  brackets : IsBalanced nesting cs
  colons : ∀ front, front ++ [':'] <+: cs → 0 < depthOf nesting front

instance (cs : List Char) : Decidable (IsNamePart cs) :=
  decidable_of_iff
    (trim cs = cs ∧ IsBalanced nesting cs ∧
      ∀ front, front ++ [':'] <+: cs → 0 < depthOf nesting front)
    ⟨fun ⟨trimmed, brackets, colons⟩ => ⟨trimmed, brackets, colons⟩,
      fun part => ⟨part.trimmed, part.brackets, part.colons⟩⟩

theorem IsComponent.isNamePart {cs : List Char} (component : IsComponent cs) : IsNamePart cs := by
  refine ⟨component.trim_eq, isBalanced_of_neutral component.neutral, fun front colon => ?_⟩
  exact absurd (colon.subset (by simp)) component.colons

theorem IsNamePart.scopePieces_append {cs : List Char} (part : IsNamePart cs) (rest : List Char) :
    scopePieces 0 (cs ++ rest) = (scopePieces 0 rest).modifyHead (cs ++ ·) := by
  have inside : ∀ front, front ++ [':'] <+: cs → 0 + depthOf nesting front ≠ 0 := by
    intro front colon
    have deep := part.colons front colon
    omega
  have whole := Chars.scopePieces_append inside rest
  rwa [part.brackets.closed, Int.add_zero] at whole

theorem IsNamePart.splitScope_eq {cs : List Char} (part : IsNamePart cs) :
    splitScope cs = [cs] := by
  have alone := part.scopePieces_append []
  rw [List.append_nil] at alone
  rw [splitScope, alone]
  simp [scopePieces, part.trimmed]

theorem IsNamePart.splitScope_cons {cs : List Char} (part : IsNamePart cs) (rest : List Char) :
    splitScope (cs ++ ':' :: ':' :: rest) = cs :: splitScope rest := by
  have colons : scopePieces 0 (':' :: ':' :: rest) = [] :: scopePieces 0 rest := by
    rw [scopePieces, if_pos ⟨rfl, rfl, rfl⟩]
  rw [splitScope, part.scopePieces_append, colons, splitScope]
  simp [part.trimmed]

/-- Parts of a name that are written with `::` between them are found again. -/
theorem splitScope_intercalate {parts : List (List Char)} (some : parts ≠ [])
    (each : ∀ cs ∈ parts, IsNamePart cs) : splitScope ([':', ':'].intercalate parts) = parts := by
  induction parts with
  | nil => exact absurd rfl some
  | cons first others ih =>
      obtain ⟨part, later⟩ := List.forall_mem_cons.mp each
      cases others with
      | nil =>
          rw [List.intercalate_singleton]
          exact part.splitScope_eq
      | cons second others =>
          rw [List.intercalate_cons_cons, List.append_assoc, List.cons_append,
            List.singleton_append, part.splitScope_cons, ih (List.cons_ne_nil _ _) later]

/-! ## Names with arguments -/

/-- The template arguments at the end of a name, if it has some. -/
def argumentList : Option (List Char) → List Char
  | none => []
  | some args => '<' :: args ++ ['>']

theorem scopePieces_argumentList {args : Option (List Char)}
    (balanced : ∀ cs ∈ args, IsBalanced nesting cs) :
    scopePieces 0 (argumentList args) = [argumentList args] := by
  cases args with
  | none => rfl
  | some args =>
      have brackets := balanced args rfl
      have inside : ∀ front, front ++ [':'] <+: args → 1 + depthOf nesting front ≠ 0 := by
        intro front colon
        have opened := brackets.opened front ((List.prefix_append front [':']).trans colon)
        omega
      have whole := scopePieces_append inside ['>']
      have opening : nesting '<' = 1 := rfl
      rw [argumentList, List.cons_append, scopePieces_cons (by simp), opening, Int.zero_add, whole]
      simp [scopePieces]

theorem outsideAngles_append (depth : Int) (left right : List Char) :
    outsideAngles depth (left ++ right) =
      outsideAngles depth left ++ outsideAngles (depth + depthOf angleNesting left) right := by
  induction left generalizing depth with
  | nil => simp [outsideAngles]
  | cons c left ih =>
      rw [List.cons_append, outsideAngles, outsideAngles, ih, depthOf_cons, ← Int.add_assoc]
      split <;> simp

theorem outsideAngles_eq_self {cs : List Char} (neutral : ∀ c ∈ cs, angleNesting c = 0) :
    outsideAngles 0 cs = cs := by
  induction cs with
  | nil => rfl
  | cons c cs ih =>
      have here := neutral c List.mem_cons_self
      have behind := ih fun d member => neutral d (List.mem_cons_of_mem _ member)
      rw [outsideAngles, here, Int.add_zero, behind]
      simp

theorem outsideAngles_eq_nil {depth : Int} {cs : List Char}
    (inside : ∀ front, front <+: cs → 0 < depth + depthOf angleNesting front) :
    outsideAngles depth cs = [] := by
  induction cs generalizing depth with
  | nil => rfl
  | cons c cs ih =>
      have here := inside [] (List.nil_prefix)
      have behind : outsideAngles (depth + angleNesting c) cs = [] := by
        refine ih fun front isFront => ?_
        have later := inside (c :: front) (List.prefix_cons_inj c |>.mpr isFront)
        rw [depthOf_cons] at later
        omega
      rw [depthOf_nil] at here
      rw [outsideAngles, behind, if_neg (by omega)]

theorem IsComponent.stripTemplateArgs_append {cs : List Char} (component : IsComponent cs)
    {args : Option (List Char)} (balanced : ∀ text ∈ args, IsBalanced angleNesting text) :
    stripTemplateArgs (cs ++ argumentList args) = cs := by
  have list : outsideAngles 0 (argumentList args) = [] := by
    cases args with
    | none => rfl
    | some args =>
        have brackets := balanced args rfl
        have inside : outsideAngles 1 args = [] := by
          refine outsideAngles_eq_nil fun front isFront => ?_
          have opened := brackets.opened front isFront
          omega
        have opening : angleNesting '<' = 1 := rfl
        rw [argumentList, List.cons_append, outsideAngles, opening, Int.zero_add,
          outsideAngles_append, inside, brackets.closed]
        decide
  have level := depthOf_eq_zero_of_neutral component.angles
  rw [stripTemplateArgs, outsideAngles_append, outsideAngles_eq_self component.angles, level,
    Int.zero_add, list, List.append_nil, component.trim_eq]

theorem IsComponent.trim_append {cs : List Char} (component : IsComponent cs)
    (args : Option (List Char)) : trim (cs ++ argumentList args) = cs ++ argumentList args := by
  refine trim_eq_self ?_ ?_
  · intro c first
    cases cs with
    | nil => exact absurd rfl component.nonempty
    | cons d cs =>
        cases first
        exact component.shown c List.mem_cons_self
  · intro c last
    cases args with
    | none =>
        rw [argumentList, List.append_nil] at last
        exact component.shown c (List.mem_of_mem_getLast? last)
    | some args =>
        have shape : cs ++ argumentList (some args) = (cs ++ '<' :: args) ++ ['>'] := by
          simp [argumentList]
        rw [shape, List.getLast?_concat] at last
        cases last
        decide

/-- The first component of a name is found whether or not it has arguments. -/
theorem exists_splitScope_eq {first : List Char} {others : List (List Char)}
    {args : Option (List Char)} (component : IsComponent first)
    (nested : ∀ text ∈ args, IsBalanced nesting text)
    (angles : ∀ text ∈ args, IsBalanced angleNesting text) :
    ∃ written pieces,
      splitScope ([':', ':'].intercalate (first :: others) ++ argumentList args) =
        written :: pieces ∧ stripTemplateArgs written = first := by
  cases others with
  | nil =>
      have pieces := component.isNamePart.scopePieces_append (argumentList args)
      rw [scopePieces_argumentList nested] at pieces
      refine ⟨first ++ argumentList args, [], ?_, component.stripTemplateArgs_append angles⟩
      rw [List.intercalate_singleton, splitScope, pieces]
      simp [component.trim_append]
  | cons second others =>
      have bare : stripTemplateArgs (first ++ argumentList none) = first :=
        component.stripTemplateArgs_append nofun
      rw [argumentList, List.append_nil] at bare
      refine ⟨first, splitScope ([':', ':'].intercalate (second :: others) ++ argumentList args),
        ?_, bare⟩
      have parts : [':', ':'].intercalate (first :: second :: others) ++ argumentList args =
          first ++ ':' :: ':' ::
            ([':', ':'].intercalate (second :: others) ++ argumentList args) := by
        simp [List.intercalate_cons_cons]
      rw [parts, component.isNamePart.splitScope_cons]

end Chars

namespace Text

/-- A text that stands for one component of a name. -/
def IsComponent (s : String) : Prop :=
  Chars.IsComponent s.toList

instance (s : String) : Decidable (IsComponent s) :=
  inferInstanceAs (Decidable (Chars.IsComponent s.toList))

/-- The template arguments at the end of a name, if it has some. -/
def argumentList : Option (List String) → String
  | none => ""
  | some args => "<" ++ joinArgs args ++ ">"

theorem toList_argumentList (args : Option (List String)) :
    (argumentList args).toList =
      Chars.argumentList (args.map fun args => (joinArgs args).toList) := by
  cases args with
  | none => rfl
  | some args => simp [argumentList, Chars.argumentList]

theorem toList_joinScope (components : List String) :
    (joinScope components).toList = [':', ':'].intercalate (components.map String.toList) :=
  String.toList_intercalate

/-- A text that can stand between two `::`. -/
def IsNamePart (s : String) : Prop :=
  Chars.IsNamePart s.toList

instance (s : String) : Decidable (IsNamePart s) :=
  inferInstanceAs (Decidable (Chars.IsNamePart s.toList))

theorem IsComponent.isNamePart {s : String} (component : IsComponent s) : IsNamePart s :=
  Chars.IsComponent.isNamePart component

theorem splitScope_joinScope {parts : List String} (some : parts ≠ [])
    (each : ∀ part ∈ parts, IsNamePart part) : splitScope (joinScope parts) = parts := by
  have texts : ∀ cs ∈ parts.map String.toList, Chars.IsNamePart cs := List.forall_mem_map.mpr each
  rw [splitScope, toList_joinScope, Chars.splitScope_intercalate (by simpa using some) texts,
    List.map_map]
  exact (List.map_congr_left fun part _ => String.ofList_toList).trans (List.map_id _)

theorem exists_splitScope_eq {first : String} {others : List String}
    {args : Option (List String)} (component : IsComponent first)
    (arguments : ∀ list ∈ args, ∀ arg ∈ list, IsArgument arg) :
    ∃ written pieces,
      splitScope (joinScope (first :: others) ++ argumentList args) = written :: pieces ∧
        stripTemplateArgs written = first := by
  have balanced : ∀ nested : Char → Int, (∀ c ∈ [',', ' '], nested c = 0) →
      (∀ arg : String, IsArgument arg → Chars.IsBalanced nested arg.toList) →
      ∀ text ∈ args.map fun args => (joinArgs args).toList, Chars.IsBalanced nested text := by
    intro nested neutral each text member
    obtain ⟨list, isList, rfl⟩ := Option.map_eq_some_iff.mp member
    rw [toList_joinArgs]
    refine Chars.isBalanced_intercalate neutral fun cs inside => ?_
    obtain ⟨arg, found, rfl⟩ := List.mem_map.mp inside
    exact each arg (arguments list isList arg found)
  obtain ⟨written, pieces, split, bare⟩ : ∃ written pieces,
      Chars.splitScope ([':', ':'].intercalate (first.toList :: others.map String.toList) ++
          Chars.argumentList (args.map fun args => (joinArgs args).toList)) = written :: pieces ∧
        Chars.stripTemplateArgs written = first.toList :=
    Chars.exists_splitScope_eq component
      (balanced Chars.nesting (by simp [Chars.nesting]) fun arg argument => argument.isBalanced)
      (balanced Chars.angleNesting (by simp [Chars.angleNesting]) fun arg argument =>
        argument.angles)
  refine ⟨String.ofList written, pieces.map String.ofList, ?_, ?_⟩
  · rw [splitScope, String.toList_append, toList_joinScope, toList_argumentList, List.map_cons,
      split, List.map_cons]
  · rw [stripTemplateArgs, String.toList_ofList, bare, String.ofList_toList]

end Text

end Bindery
