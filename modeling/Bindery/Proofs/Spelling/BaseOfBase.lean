import Bindery.Proofs.Spelling.TemplateBase
import Bindery.Proofs.Text.Composition
import Bindery.Tree.Build

/-!
# Bases of bases

The arguments of a base are written in the parameters of the template that derives from it, and
become those of an instantiation by substitution.  The base of that base can be found step by step,
or from what it looks like in the parameters of the first template: the result is the same.
-/

set_option autoImplicit false

namespace Bindery

namespace Instantiation

theorem args_baseOf (tree : DeclTree) (instantiation : Instantiation) (template : DeclId)
    (written : List String) :
    (instantiation.baseOf tree template written).args =
      written.map fun arg =>
        Text.substitute arg (tree.parameterNames instantiation.template) instantiation.args :=
  (map_substitute tree instantiation written).symm

/-- The base of a base, with its arguments written in the parameters of the first template. -/
theorem baseOf_baseOf {tree : DeclTree} {instantiation : Instantiation} {base root : DeclId}
    {args written : List String} (same : args.length = (tree.parameterNames base).length)
    (isSealed : ∀ arg ∈ args, Text.IsSealed arg)
    (apart : ∀ arg ∈ written, Text.NamesApart arg (tree.parameterNames base)
      (tree.parameterNames instantiation.template)) :
    (instantiation.baseOf tree base args).baseOf tree root written =
      instantiation.baseOf tree root
        (written.map fun arg => Text.substitute arg (tree.parameterNames base) args) := by
  have step := args_baseOf tree (instantiation.baseOf tree base args) root written
  have once := args_baseOf tree instantiation root
    (written.map fun arg => Text.substitute arg (tree.parameterNames base) args)
  refine congrArg (mk root) (step.trans (Eq.trans ?_ once.symm))
  rw [List.map_map, args_baseOf]
  exact List.map_congr_left fun arg member =>
    (Text.substitute_substitute same isSealed (apart arg member)).symm

end Instantiation

/-- Substitutions compose if no colon stands at an end of an argument and no other name of the text
is a later parameter.  Hence the base of a base has the same arguments, whether it is found step by
step or from the base clauses put together. -/
theorem substitutions_compose {params args later given : List String}
    (same : args.length = params.length) (isSealed : ∀ arg ∈ args, Text.IsSealed arg) :
    (∀ s, Text.NamesApart s params later →
      Text.substitute (Text.substitute s params args) later given =
        Text.substitute s params (args.map fun arg => Text.substitute arg later given)) ∧
    ∀ (speller : Speller) (derived base root : DeclId) (written : List String),
      speller.tree.parameterNames derived = later → speller.tree.parameterNames base = params →
      speller.HasTemplateBase derived base args → speller.HasTemplateBase base root written →
      (∀ arg ∈ written, Text.NamesApart arg params later) →
      let composed := written.map fun arg =>
        Text.substitute (Text.substitute arg params args) later given
      ∃ between, speller.instantiateBase? derived given =
          some (.instantiation base (Instantiation.cppType speller.tree ⟨base, between⟩) between) ∧
        speller.instantiateBase? base between =
          some (.instantiation root (Instantiation.cppType speller.tree ⟨root, composed⟩)
            composed) := by
  refine ⟨fun s apart => Text.substitute_substitute same isSealed apart, ?_⟩
  rintro speller derived base root written rfl rfl hasBase hasRoot apart composed
  let first : Instantiation := ⟨derived, given⟩
  have composedArgs : (first.baseOf speller.tree root
      (written.map fun arg => Text.substitute arg (speller.tree.parameterNames base) args)).args =
      composed := by
    rw [Instantiation.args_baseOf, List.map_map]
    rfl
  have outer : speller.HasTemplateBase first.template base args := hasBase
  have inner : speller.HasTemplateBase (first.baseOf speller.tree base args).template root written :=
    hasRoot
  have second := inner.instantiateBase?_eq_some
  rw [Instantiation.baseOf_baseOf same isSealed apart, Instantiation.cppType, composedArgs] at second
  exact ⟨_, outer.instantiateBase?_eq_some, second⟩

/-- Class templates that derive from each other, two of them with the same parameters in another
order. -/
def towerTree : DeclTree :=
  ((TreeBuilder.start "/src/unit.hpp").performAll
    [.classTemplate 0 "Grand" ["S"],
     .classTemplate 0 "Pair" ["T", "U"],
     .templateBase 3 1 "Wrap<U, T>",
     .classTemplate 0 "Derived" ["U", "T"],
     .templateBase 8 3 "T*, Slot<U>"]).unit.tree

theorem tower_hasTemplateBase_pair :
    (Speller.ofTree towerTree).HasTemplateBase 8 3 ["T*", "Slot<U>"] := by
  refine ⟨⟨11, 1, ?_, ?_, ?_, .dependent "Pair" (.inl ?_) ?_ ?_ ?_ ?_ ?_ ?_⟩, ?_, ?_⟩ <;>
    decide +kernel

theorem tower_hasTemplateBase_grand :
    (Speller.ofTree towerTree).HasTemplateBase 3 1 ["Wrap<U, T>"] := by
  refine ⟨⟨6, 0, ?_, ?_, ?_, .dependent "Grand" (.inl ?_) ?_ ?_ ?_ ?_ ?_ ?_⟩, ?_, ?_⟩ <;>
    decide +kernel

/-- The parameters of the two templates have the same names, and so has an argument. -/
theorem tower_base_is_instantiated :
    Text.substitute (Text.substitute "Wrap<U, T>" ["T", "U"] ["T*", "Slot<U>"])
        ["U", "T"] ["T", "int"] =
      "Wrap<Slot<T>, int*>" ∧
    ∃ between,
      (Speller.ofTree towerTree).instantiateBase? 8 ["T", "int"] =
          some (.instantiation 3 (Instantiation.cppType towerTree ⟨3, between⟩) between) ∧
        (Speller.ofTree towerTree).instantiateBase? 3 between =
          some (.instantiation 1 "Grand<Wrap<Slot<T>, int*>>" ["Wrap<Slot<T>, int*>"]) := by
  obtain ⟨texts, bases⟩ := @substitutions_compose ["T", "U"] ["T*", "Slot<U>"] ["U", "T"]
    ["T", "int"] rfl (by decide +kernel)
  have named : (Speller.ofTree towerTree).tree.parameterNames 8 = ["U", "T"] := by decide +kernel
  have inner : (Speller.ofTree towerTree).tree.parameterNames 3 = ["T", "U"] := by decide +kernel
  obtain ⟨between, first, second⟩ := bases (Speller.ofTree towerTree) 8 3 1 ["Wrap<U, T>"] named
    inner tower_hasTemplateBase_pair tower_hasTemplateBase_grand (by decide +kernel)
  have folded : Text.substitute "Wrap<U, T>" ["T", "U"]
      (["T*", "Slot<U>"].map fun arg => Text.substitute arg ["U", "T"] ["T", "int"]) =
      "Wrap<Slot<T>, int*>" := by
    rw [← String.toList_inj, Text.toList_substitute]
    decide +kernel
  have wrapped := (texts "Wrap<U, T>" (by decide +kernel)).trans folded
  have composed : ["Wrap<U, T>"].map (fun arg =>
      Text.substitute (Text.substitute arg ["T", "U"] ["T*", "Slot<U>"]) ["U", "T"] ["T", "int"]) =
      ["Wrap<Slot<T>, int*>"] := by
    rw [List.map_singleton, wrapped]
  have grand : Instantiation.cppType (Speller.ofTree towerTree).tree
      ⟨1, ["Wrap<Slot<T>, int*>"]⟩ = "Grand<Wrap<Slot<T>, int*>>" := by
    decide +kernel
  refine ⟨wrapped, between, first, ?_⟩
  rw [second, composed, grand]

end Bindery
