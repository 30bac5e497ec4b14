import Bindery.Proofs.Text.Arguments
import Bindery.Proofs.Text.Substitution
import Bindery.Spelling.BaseClass

/-!
# Bases of instantiations

The public base of a class template may be an instantiation of another one, which may have such a
base in turn.  The arguments of each follow from those of the instantiation that derives from it.
-/

set_option autoImplicit false

namespace Bindery

/-! ## Spellings of bases -/

namespace TypeRegistries

theorem qualifyTypenames_eq_self (registries : TypeRegistries) {spelling : String}
    (absent : Text.containsWord spelling "typename" = false) :
    registries.qualifyTypenames spelling = spelling := by
  have places : Chars.findWord spelling.toList "typename".toList = [] := by
    simpa [Text.containsWord, Chars.containsWord] using absent
  have unchanged : Edits.empty.apply spelling.toList = spelling.toList := by
    simp [Edits.apply, Edits.splice?, Edits.sorted, Edits.empty, Edits.applyFrom]
  simp only [qualifyTypenames, places, List.filterMap_nil, Edits.pushAll, unchanged,
    String.ofList_toList]

end TypeRegistries

namespace Speller

variable (speller : Speller)

/-- Whether a type is written as a class template with the given arguments: as a name that depends
on template parameters and shows no `typename`, or by any spelling that comes out as one. -/
inductive Writes (type : TypeId) (template : DeclId) (written : List String) : Prop
  | dependent (name : String)
      (kind : (speller.tree.type type).kind = .unexposed ∨
        (speller.tree.type type).kind = .elaborated)
      (bare : (speller.tree.type type).isConst = false)
      (behind : speller.tree.typeDeclaration type = some template)
      (isTemplate : (speller.tree.decl template).kind = .classTemplate)
      (spelling : (speller.tree.type type).spelling = name ++ "<" ++ Text.joinArgs written ++ ">")
      (plain : '<' ∉ name.toList)
      (untyped : ∀ qualifier ∈ [name, speller.tree.qualifiedName template],
        Text.containsWord (qualifier ++ "<" ++ Text.joinArgs written ++ ">") "typename" = false)
  | spelled (name : String) (plain : '<' ∉ name.toList)
      (spelling : speller.spell type = name ++ "<" ++ Text.joinArgs written ++ ">")

variable {speller} {type : TypeId} {template : DeclId} {written : List String}

/-- A dependent name is spelled as written, or with the qualified name of the template. -/
theorem spellTemplate_eq {name : String} (plain : '<' ∉ name.toList)
    (arguments : ∀ arg ∈ written, Text.IsArgument arg)
    (untyped : ∀ qualifier ∈ [name, speller.tree.qualifiedName template],
      Text.containsWord (qualifier ++ "<" ++ Text.joinArgs written ++ ">") "typename" = false) :
    ∃ qualifier ∈ [name, speller.tree.qualifiedName template],
      speller.spellTemplate (name ++ "<" ++ Text.joinArgs written ++ ">") template =
        qualifier ++ "<" ++ Text.joinArgs written ++ ">" := by
  have split := Text.splitTemplate_joinArgs plain arguments ""
  rw [String.append_empty] at split
  simp only [spellTemplate]
  by_cases qualified : Text.containsText "::" (name ++ "<" ++ Text.joinArgs written ++ ">") = true
  · refine ⟨name, List.mem_cons_self, ?_⟩
    rw [if_pos qualified]
    exact speller.registries.qualifyTypenames_eq_self (untyped name List.mem_cons_self)
  · have member : speller.tree.qualifiedName template ∈
        [name, speller.tree.qualifiedName template] := by simp
    refine ⟨speller.tree.qualifiedName template, member, ?_⟩
    rw [if_neg qualified]
    simp only [split, String.append_empty]
    exact speller.registries.qualifyTypenames_eq_self (untyped _ member)

theorem Writes.exists_spell_eq (writes : speller.Writes type template written)
    (arguments : ∀ arg ∈ written, Text.IsArgument arg)
    (plain : '<' ∉ (speller.tree.qualifiedName template).toList) :
    ∃ name : String, '<' ∉ name.toList ∧
      speller.spell type = name ++ "<" ++ Text.joinArgs written ++ ">" := by
  cases writes with
  | spelled name plain spelling => exact ⟨name, plain, spelling⟩
  | dependent name kind bare behind isTemplate spelling plainName untyped =>
      obtain ⟨qualifier, member, spelled⟩ := spellTemplate_eq plainName arguments untyped
      refine ⟨qualifier, ?_, ?_⟩
      · simp only [List.mem_cons, List.not_mem_nil, or_false] at member
        rcases member with rfl | rfl
        · exact plainName
        · exact plain
      · rw [← spelled, ← spelling]
        rcases kind with unexposed | elaborated
        · simp [spell, spellTo, unexposed, bare, Spelling.withConst, spellNamed, behind,
            isTemplate]
        · simp [spell, spellTo, elaborated, bare, Spelling.withConst, spellNamed, behind,
            isTemplate]

end Speller

/-! ## Instantiations and their bases -/

/-- A class template with arguments. -/
structure Instantiation where
  template : DeclId
  args : List String
deriving Repr, DecidableEq

namespace Instantiation

/-- The C++ type of an instantiation. -/
def cppType (tree : DeclTree) (instantiation : Instantiation) : String :=
  tree.qualifiedName instantiation.template ++ "<" ++ Text.joinArgs instantiation.args ++ ">"

/-- What a name stands for inside an instantiation: the argument for the parameter of that name. -/
def meaning (tree : DeclTree) (instantiation : Instantiation) (name : String) : Option String :=
  ((tree.parameterNames instantiation.template).zip instantiation.args).lookup name

/-- The instantiation of another template by arguments in which the parameters of this one's
template stand for its arguments. -/
def baseOf (tree : DeclTree) (instantiation : Instantiation) (template : DeclId)
    (written : List String) : Instantiation :=
  ⟨template, written.map (Text.replaceWords (instantiation.meaning tree))⟩

theorem map_substitute (tree : DeclTree) (instantiation : Instantiation) (written : List String) :
    (written.map fun arg =>
      Text.substitute arg (tree.parameterNames instantiation.template) instantiation.args) =
    written.map (Text.replaceWords (instantiation.meaning tree)) := by
  refine List.map_congr_left ?_
  intro arg _
  exact Text.substitute_eq_replaceWords arg _ _

end Instantiation

namespace Speller

/-- The first public base of a class template is another class template with the given
arguments. -/
structure HasTemplateBase (speller : Speller) (template base : DeclId) (written : List String) :
    Prop where
  specifier : ∃ specifier type,
    speller.tree.publicBase? template = some specifier ∧
      (speller.tree.decl specifier).type = some type ∧
      speller.tree.baseTemplate? specifier = some base ∧ speller.Writes type base written
  arguments : ∀ arg ∈ written, Text.IsArgument arg
  plain : '<' ∉ (speller.tree.qualifiedName base).toList

/-- The bases of an instantiation, the nearest first, down to one that has none. -/
inductive BaseChain (speller : Speller) : Instantiation → List Instantiation → Prop
  | root {instantiation : Instantiation}
      (last : speller.tree.publicBase? instantiation.template = none) :
      BaseChain speller instantiation []
  | derived {instantiation : Instantiation} {base : DeclId} {written : List String}
      {bases : List Instantiation}
      (has : speller.HasTemplateBase instantiation.template base written)
      (inner : BaseChain speller (instantiation.baseOf speller.tree base written) bases) :
      BaseChain speller instantiation (instantiation.baseOf speller.tree base written :: bases)

variable {speller : Speller} {instantiation : Instantiation}

theorem instantiateBase?_of_publicBase?_eq_none
    (last : speller.tree.publicBase? instantiation.template = none) :
    speller.instantiateBase? instantiation.template instantiation.args = none := by
  simp [instantiateBase?, resolveBase?, last]

theorem HasTemplateBase.instantiateBase?_eq_some {base : DeclId} {written : List String}
    (has : speller.HasTemplateBase instantiation.template base written) :
    speller.instantiateBase? instantiation.template instantiation.args =
      some (.instantiation base
        ((instantiation.baseOf speller.tree base written).cppType speller.tree)
        (instantiation.baseOf speller.tree base written).args) := by
  obtain ⟨specifier, type, isBase, typed, behind, writes⟩ := has.specifier
  obtain ⟨name, plain, spelled⟩ := writes.exists_spell_eq has.arguments has.plain
  have split := Text.splitTemplate_joinArgs plain has.arguments ""
  rw [String.append_empty] at split
  have read := Text.templateArgs_joinArgs has.arguments
  simp [instantiateBase?, resolveBase?, isBase, typed, spelled, behind, split, read,
    Instantiation.cppType, Instantiation.baseOf, Instantiation.map_substitute]

theorem BaseChain.instantiateBase?_eq {bases : List Instantiation}
    (chain : speller.BaseChain instantiation bases) :
    speller.instantiateBase? instantiation.template instantiation.args =
      bases.head?.map fun base =>
        .instantiation base.template (base.cppType speller.tree) base.args := by
  cases chain with
  | root last => exact instantiateBase?_of_publicBase?_eq_none last
  | derived has inner => exact has.instantiateBase?_eq_some

theorem BaseChain.plain {bases : List Instantiation}
    (chain : speller.BaseChain instantiation bases) :
    ∀ base ∈ bases, '<' ∉ (speller.tree.qualifiedName base.template).toList := by
  induction chain with
  | root => exact nofun
  | derived has inner ih =>
      intro base member
      rcases List.mem_cons.mp member with rfl | farther
      · exact has.plain
      · exact ih base farther

end Speller

end Bindery
