import Bindery.Proofs.Tree.Forms

/-!
# Types made step by step

Each step, given what is there, makes types from earlier ones and leaves those in order: a type
around another gets its form when it is made, so does a name, and a declaration gets the type that
it gives before anything can tell of it.
-/

set_option autoImplicit false

namespace Bindery

/-- Whether a computation that starts with a tree makes each type from earlier ones and tells of
none that is not there; `bound` declarations are settled. -/
structure Build.TypesFrom (bound : Nat) (builder : TreeBuilder) {α : Type} (tells : α → List TypeId)
    (step : Build α) : Prop where
  typed : (step.run builder).2.IsTyped bound
  grows : builder.tree.types.size ≤ (step.run builder).2.tree.types.size
  told : ∀ type ∈ tells (step.run builder).1, type < (step.run builder).2.tree.types.size

theorem Build.TypesFrom.of_run_bind_eq {bound : Nat} {builder : TreeBuilder} {α β : Type}
    {tells : β → List TypeId} {first other : Build α} {rest : α → Build β}
    (same : first.run builder = other.run builder)
    (types : (other >>= rest).TypesFrom bound builder tells) :
    (first >>= rest).TypesFrom bound builder tells := by
  have run : (first >>= rest).run builder = (other >>= rest).run builder := by
    rw [StateT.run_bind, StateT.run_bind, same]
  exact ⟨run ▸ types.typed, run ▸ types.grows, run ▸ types.told⟩

/-- Whether a computation does so with every tree that has `known` types or more. -/
def Build.Types (bound known : Nat) {α : Type} (tells : α → List TypeId) (step : Build α) : Prop :=
  ∀ builder : TreeBuilder, builder.IsTyped bound → known ≤ builder.tree.types.size →
    step.TypesFrom bound builder tells

/-- Nothing is said of the types that a value tells of. -/
def Build.untold {α : Type} (_ : α) : List TypeId := []

namespace Build.Types

variable {bound known : Nat} {α β : Type} {tells : α → List TypeId} {alsoTells : β → List TypeId}

theorem of_unchanged {step : Build α} (same : ∀ builder, (step.run builder).2 = builder) :
    step.Types bound known untold := fun builder typed _ =>
  ⟨(same builder).symm ▸ typed, (same builder).symm ▸ Nat.le_refl _, nofun⟩

theorem pure (value : α) (known_lt : ∀ type ∈ tells value, type < known) :
    Types bound known tells (Pure.pure value : Build α) :=
  fun _ typed large => ⟨typed, Nat.le_refl _, fun type told => (known_lt type told).trans_le large⟩

theorem get : Types bound known untold (MonadState.get : Build TreeBuilder) :=
  of_unchanged fun _ => rfl

theorem bind {first : Build α} {rest : α → Build β} (typesFirst : first.Types bound known tells)
    (typesRest : ∀ value more, known ≤ more → (∀ type ∈ tells value, type < more) →
      (rest value).Types bound more alsoTells) : (first >>= rest).Types bound known alsoTells := by
  intro builder typed large
  obtain ⟨between, grows, told⟩ := typesFirst builder typed large
  obtain ⟨after, growsOn, alsoTold⟩ := typesRest (first.run builder).1
    (first.run builder).2.tree.types.size (large.trans grows) told (first.run builder).2 between
    (Nat.le_refl _)
  exact ⟨after, grows.trans growsOn, alsoTold⟩

/-- Where no types are told the types that are there are enough for what follows. -/
theorem andThen {first : Build α} {rest : α → Build β} (typesFirst : first.Types bound known untold)
    (typesRest : ∀ value, (rest value).Types bound known alsoTells) :
    (first >>= rest).Types bound known alsoTells :=
  typesFirst.bind fun value _ le _ builder typed large =>
    typesRest value builder typed (le.trans large)

theorem map {step : Build α} (f : α → β) (types : step.Types bound known tells) :
    (f <$> step).Types bound known untold := fun builder typed large =>
  ⟨(types builder typed large).typed, (types builder typed large).grows, nofun⟩

theorem forM {step : α → Build PUnit} (types : ∀ value, (step value).Types bound known untold)
    (values : List α) : Types bound known untold (values.forM step) := by
  induction values with
  | nil => exact .pure _ nofun
  | cons value rest ih => exact .andThen (types value) fun _ => ih

/-- A computation that makes no types may add declarations, and change others as long as the settled
ones give what they gave. -/
theorem of_decls {step : Build α}
    (types : ∀ builder, (step.run builder).2.tree.types = builder.tree.types)
    (grows : ∀ builder, builder.tree.size ≤ (step.run builder).2.tree.size)
    (same : ∀ builder, ∀ id < bound, ((step.run builder).2.tree.decl id).underlyingType =
      (builder.tree.decl id).underlyingType)
    (gives : ∀ builder : TreeBuilder, builder.IsTyped bound → known ≤ builder.tree.types.size →
      ∀ id type, ((step.run builder).2.tree.decl id).underlyingType = some type →
        type < builder.tree.types.size)
    (builtins : ∀ builder, (step.run builder).2.builtins = builder.builtins)
    (records : ∀ builder, (step.run builder).2.records = builder.records) :
    step.Types bound known untold := by
  intro builder typed large
  refine ⟨typed.of_decls (typed.settled.trans (grows builder)) (types builder) (same builder)
    (fun found => gives builder typed large _ _ found) (builtins builder) (records builder), ?_,
    nofun⟩
  rw [types]

end Build.Types

namespace TreeBuilder

variable {bound known : Nat} {α : Type} {tells : α → List TypeId}

theorem decl_types (id : DeclId) : (decl id).Types bound known Build.untold :=
  .of_unchanged fun _ => rfl

theorem type_types (id : TypeId) : (type id).Types bound known Build.untold :=
  .of_unchanged fun _ => rfl

theorem get_bind_typesFrom {builder : TreeBuilder} {rest : TreeBuilder → Build α}
    (types : (rest builder).TypesFrom bound builder tells) :
    (get >>= rest).TypesFrom bound builder tells :=
  ⟨types.typed, types.grows, types.told⟩

theorem type_bind_typesFrom {builder : TreeBuilder} {id : TypeId} {rest : CppType → Build α}
    (types : (rest (builder.tree.type id)).TypesFrom bound builder tells) :
    (type id >>= rest).TypesFrom bound builder tells :=
  ⟨types.typed, types.grows, types.told⟩

theorem pushType_bind_typesFrom {builder : TreeBuilder} (typed : builder.IsTyped bound)
    {type : CppType} (made : builder.tree.IsMade bound builder.tree.types.size type)
    {rest : TypeId → Build α}
    (typesRest : { builder with tree := (builder.tree.pushType type).1 }.IsTyped bound →
      (rest builder.tree.types.size).TypesFrom bound
        { builder with tree := (builder.tree.pushType type).1 } tells) :
    (pushType type >>= rest).TypesFrom bound builder tells := by
  obtain ⟨after, grows, told⟩ := typesRest (typed.pushType made)
  exact ⟨after, ((Nat.le_succ _).trans (DeclTree.types_size_pushType ..).ge).trans grows, told⟩

theorem pushType_typesFrom {builder : TreeBuilder} (typed : builder.IsTyped bound)
    {type : CppType} (made : builder.tree.IsMade bound builder.tree.types.size type) :
    (pushType type).TypesFrom bound builder ([·]) := by
  have pushed : (pushType type >>= Pure.pure).TypesFrom bound builder ([·]) :=
    pushType_bind_typesFrom typed made fun after => ⟨after, Nat.le_refl _,
      List.forall_mem_singleton.mpr (DeclTree.types_size_pushType ..).ge⟩
  exact pushed

theorem leaf_types {kind : TypeKind} (leaf : (kind == .unexposed || kind == .dependent) = true)
    (spelling : String) : (pushType (CppType.make kind spelling)).Types bound known ([·]) := by
  intro builder typed _
  have apart : kind.isAround = false ∧ kind.isName = false := by
    revert leaf
    cases kind <;> decide
  exact pushType_typesFrom typed (.of_leaf spelling apart.1 apart.2 nofun)

/-! ### Types around others -/

/-- A type of some size around another. -/
def wrapSized (kind : TypeKind) (inner : TypeId) (spelling : String) (size : Option Nat) :
    Build TypeId := do
  let type := { CppType.make kind spelling with pointee := some inner, arraySize := size }
  match (← TreeBuilder.type inner).canonical with
  | none => pushType type
  | some core =>
      let spelling := derivedSpelling kind (← TreeBuilder.type core)
      let form ← pushType { CppType.make kind spelling with pointee := some core }
      pushType { type with canonical := some form }

theorem wrap_eq_wrapSized (kind : TypeKind) (inner : TypeId) (spelling : String) :
    wrap kind inner spelling = wrapSized kind inner spelling none :=
  rfl

/-- A type that was added last may as well be added with its size. -/
theorem pushType_resized (type : CppType) (size : Nat) :
    (do
      let id ← pushType type
      modify fun builder =>
        { builder with
          tree := builder.tree.modifyType id fun type => { type with arraySize := some size } }
      return id) = pushType { type with arraySize := some size } :=
  funext fun builder =>
    congrArg (fun tree => (builder.tree.types.size, ({ builder with tree } : TreeBuilder)))
      (DeclTree.modifyType_pushType builder.tree type
        fun type => { type with arraySize := some size })

theorem array_eq_wrapSized (element : TypeId) (size : Nat) :
    array element size = (do
      let spelling := (← type element).bareSpelling ++ "[" ++ toString size ++ "]"
      wrapSized .constantArray element spelling (some size)) := by
  unfold array wrap wrapSized
  refine congrArg (type element >>= ·) (funext fun written => ?_)
  dsimp only
  rw [bind_assoc]
  refine congrArg (type element >>= ·) (funext fun found => ?_)
  cases found.canonical with
  | none => exact pushType_resized _ size
  | some core =>
      dsimp only
      rw [bind_assoc]
      refine congrArg (type core >>= ·) (funext fun behind => ?_)
      rw [bind_assoc]
      exact congrArg (pushType _ >>= ·) (funext fun form => pushType_resized _ size)

/-- A type around one that is there, with a size if it is an array. -/
theorem wrapSized_types {kind : TypeKind} {inner : TypeId} (spelling : String) {size : Option Nat}
    (inside : inner < known) (around : kind.isAround = true)
    (sized : size.isSome = (kind == .constantArray)) :
    (wrapSized kind inner spelling size).Types bound known ([·]) := by
  intro builder typed large
  have before : inner < builder.tree.types.size := inside.trans_le large
  unfold wrapSized
  refine type_bind_typesFrom ?_
  dsimp only
  cases behind : (builder.tree.type inner).canonical with
  | none => exact pushType_typesFrom typed (.of_around around before spelling size behind)
  | some core =>
      obtain ⟨lt, own⟩ := typed.core_of_canonical behind
      refine type_bind_typesFrom (pushType_bind_typesFrom typed
        (.of_around around (lt.trans before) _ none own) fun pushed => pushType_typesFrom pushed ?_)
      rw [DeclTree.types_size_pushType]
      refine .of_aroundName around (Nat.lt_succ_of_lt before) spelling sized
        (?_ : _ = some core) (Nat.lt_succ_self _) (DeclTree.type_pushType_self ..)
      rw [DeclTree.type_pushType_of_ne before.ne]
      exact behind

theorem derived_types {kind : TypeKind} {inner : TypeId} (inside : inner < known)
    (refers : (kind == .pointer || kind.isReference) = true) :
    (derived kind inner).Types bound known ([·]) := by
  unfold derived
  refine .andThen (type_types inner) fun found => ?_
  rw [wrap_eq_wrapSized]
  refine wrapSized_types _ inside ?_ ?_ <;> revert refers <;> cases kind <;> decide

theorem array_types {element : TypeId} (inside : element < known) (size : Nat) :
    (array element size).Types bound known ([·]) := by
  rw [array_eq_wrapSized]
  exact .andThen (type_types element) fun _ => wrapSized_types _ inside rfl rfl

theorem const_types {id : TypeId} (inside : id < known) : (const id).Types bound known ([·]) := by
  intro builder typed large
  have before : id < builder.tree.types.size := inside.trans_le large
  unfold const
  refine type_bind_typesFrom ?_
  dsimp only
  cases is : (builder.tree.type id).canonical with
  | none =>
      have made := ((typed.made before).later before.le (Nat.le_refl _)).const is
      rw [is] at made
      exact pushType_typesFrom typed made
  | some core =>
      obtain ⟨lt, own⟩ := typed.core_of_canonical is
      have coreBefore := lt.trans before
      refine type_bind_typesFrom (pushType_bind_typesFrom typed
        (((typed.made coreBefore).later coreBefore.le (Nat.le_refl _)).const own) fun pushed => ?_)
      refine pushType_typesFrom pushed ?_
      rw [DeclTree.types_size_pushType]
      refine (typed.isMade_pushType _ before.le (typed.made before)).constWith
        (before.le.trans (Nat.le_succ _)) is (Nat.lt_succ_self _) ?_
      rw [DeclTree.type_pushType_self, DeclTree.type_pushType_of_ne coreBefore.ne]

theorem constRef_types {id : TypeId} (inside : id < known) :
    (constRef id).Types bound known ([·]) := by
  unfold constRef
  exact .bind (const_types inside) fun _ _ _ told =>
    derived_types (told _ List.mem_cons_self) rfl

/-! ### Types under their own names -/

theorem lt_of_lookup_cons {κ : Type} [BEq κ] {key other : κ} {added id size : Nat}
    {entries : List (κ × Nat)} (known : ∀ {key id}, entries.lookup key = some id → id < size)
    (new : added < size) (found : ((other, added) :: entries).lookup key = some id) :
    id < size := by
  rw [List.lookup_cons] at found
  split at found
  · exact Option.some.inj found ▸ new
  · exact known found

theorem builtin_types (name : String) : (builtin name).Types bound known ([·]) := by
  intro builder typed _
  unfold builtin
  refine get_bind_typesFrom ?_
  cases found : builder.builtins.lookup name with
  | some id =>
      exact ⟨typed, Nat.le_refl _, List.forall_mem_singleton.mpr (typed.builtin found)⟩
  | none =>
      refine pushType_bind_typesFrom typed (.of_leaf name rfl rfl fun decl known => ?_)
        fun pushed => ?_
      · cases known
      · have new : builder.tree.types.size <
            (builder.tree.pushType (CppType.make .builtin name)).1.types.size :=
          (DeclTree.types_size_pushType ..).ge
        exact ⟨⟨pushed.settled, pushed.made, pushed.gives,
          fun found => lt_of_lookup_cons pushed.builtin new found, pushed.record⟩, Nat.le_refl _,
          List.forall_mem_singleton.mpr new⟩

theorem once_types {id : DeclId} (inside : id < bound) {kind : TypeKind} (spelling : String)
    (single : kind.isAround = false) (unnamed : kind.isName = false) :
    (once id (CppType.make kind spelling)).Types bound known ([·]) := by
  intro builder typed _
  unfold once
  refine get_bind_typesFrom ?_
  cases found : builder.records.lookup id with
  | some type =>
      exact ⟨typed, Nat.le_refl _, List.forall_mem_singleton.mpr (typed.record found)⟩
  | none =>
      refine pushType_bind_typesFrom typed (.of_leaf spelling single unnamed fun decl known => ?_)
        fun pushed => ?_
      · cases known
        exact inside
      · have new : builder.tree.types.size < (builder.tree.pushType
            { CppType.make kind spelling with declaration := some id }).1.types.size :=
          (DeclTree.types_size_pushType ..).ge
        exact ⟨⟨pushed.settled, pushed.made, pushed.gives, pushed.builtin,
          fun found => lt_of_lookup_cons pushed.record new found⟩, Nat.le_refl _,
          List.forall_mem_singleton.mpr new⟩

theorem record_types {id : DeclId} (inside : id < bound) : (record id).Types bound known ([·]) := by
  unfold record
  exact .andThen .get fun _ => .andThen (decl_types id) fun _ => once_types inside _ rfl rfl

theorem enumType_types {id : DeclId} (inside : id < bound) :
    (enumType id).Types bound known ([·]) := by
  unfold enumType
  exact .andThen .get fun _ => once_types inside _ rfl rfl

theorem templateParamType_types {id : DeclId} (inside : id < bound) :
    (templateParamType id).Types bound known ([·]) := by
  unfold templateParamType
  refine .andThen (decl_types id) fun found builder typed _ => ?_
  refine pushType_typesFrom typed (.of_leaf found.spelling rfl rfl fun decl known => ?_)
  cases known
  exact inside

/-! ### Types written by name -/

theorem elaborated_types {named : TypeId} {declaration : DeclId} (inside : named < known)
    (declared : declaration < bound) (written : String) :
    (elaborated named declaration written).Types bound known ([·]) := by
  intro builder typed large
  have before : named < builder.tree.types.size := inside.trans_le large
  unfold elaborated
  refine get_bind_typesFrom (pushType_typesFrom typed ⟨fun {inner} leads => ?_, fun known => ?_,
    fun stands => ?_, ?_⟩)
  · have either : inner = named ∨ inner = builder.tree.canonical named := by
      simpa [CppType.links, CppType.make] using leads
    rcases either with rfl | rfl
    · exact before
    · exact (typed.canonical_le named).trans_lt before
  · cases known
    exact declared
  · cases stands
    exact before
  · exact .name rfl rfl rfl (CppType.constIf_false _).symm

theorem recordAs_types {id : DeclId} (inside : id < bound) (written : String) :
    (recordAs id written).Types bound known ([·]) := by
  unfold recordAs
  exact .bind (record_types inside) fun _ _ _ told =>
    elaborated_types (told _ List.mem_cons_self) inside written

theorem named_types {id : DeclId} (inside : id < bound) : (named id).Types bound known ([·]) := by
  unfold named
  exact .andThen (decl_types id) fun _ => recordAs_types inside _

theorem namedEnum_types {id : DeclId} (inside : id < bound) :
    (namedEnum id).Types bound known ([·]) := by
  unfold namedEnum
  exact .bind (enumType_types inside) fun _ _ _ told => .andThen (decl_types id) fun _ =>
    elaborated_types (told _ List.mem_cons_self) inside _

theorem typedefTypeAs_types {id : DeclId} (inside : id < bound) (written : String) :
    (typedefTypeAs id written).Types bound known ([·]) := by
  intro builder typed _
  unfold typedefTypeAs
  refine get_bind_typesFrom (pushType_bind_typesFrom typed ?_ fun pushed => ?_)
  · refine ⟨fun {inner} leads => ?_, fun known => ?_, fun stands => typed.gives stands, ?_⟩
    · have form : ∃ meant, (builder.tree.decl id).underlyingType = some meant ∧
          builder.tree.canonical meant = inner := by
        simpa [CppType.links, CppType.make] using leads
      obtain ⟨meant, gives, rfl⟩ := form
      exact (typed.canonical_le meant).trans_lt (typed.gives gives)
    · cases known
      exact inside
    · cases gives : (builder.tree.decl id).underlyingType with
      | none => exact .plain rfl gives rfl
      | some meant => exact .name gives rfl rfl (CppType.constIf_false _).symm
  · have further : (elaborated builder.tree.types.size id written).Types bound
        (builder.tree.types.size + 1) ([·]) :=
      elaborated_types (Nat.lt_succ_self _) inside written
    exact further _ pushed (DeclTree.types_size_pushType ..).ge

theorem typedefType_types {id : DeclId} (inside : id < bound) :
    (typedefType id).Types bound known ([·]) := by
  unfold typedefType
  exact .andThen (decl_types id) fun _ => typedefTypeAs_types inside _

/-! ### Function types -/

/-- The type of a function, whatever it is spelled, is made from the types that it is given. -/
theorem exists_functionProto_run (result : TypeId) (params : List TypeId) (builder : TreeBuilder) :
    ∃ spelling, (functionProto result params).run builder =
      (pushType { CppType.make .functionProto spelling with result := some result, params }).run
        builder := by
  have read : ∀ params : List TypeId, ∃ args,
      (params.mapM fun param => (do return (← type param).bareSpelling : Build String)).run
        builder = (args, builder) := by
    intro params
    induction params with
    | nil => exact ⟨[], rfl⟩
    | cons param rest ih =>
        obtain ⟨args, further⟩ := ih
        refine ⟨(builder.tree.type param).bareSpelling :: args, ?_⟩
        rw [List.mapM_cons, StateT.run_bind]
        change StateT.run (_ >>= _) builder = _
        rw [StateT.run_bind, further]
        rfl
  obtain ⟨args, read⟩ := read params
  unfold functionProto
  rw [StateT.run_bind, read]
  exact ⟨_, rfl⟩

section

variable {result : TypeId} {params : List TypeId} (given : ∀ type ∈ result :: params, type < known)
include given

theorem functionType_isMade {tree : DeclTree} (spelling : String) {id : TypeId}
    (large : known ≤ id) : tree.IsMade bound id
      { CppType.make .functionProto spelling with result := some result, params } := by
  refine .of_plain rfl rfl rfl (fun inner leads => (given inner ?_).trans_le large) nofun
  simpa [CppType.links, CppType.make] using leads

theorem functionProto_types : (functionProto result params).Types bound known ([·]) := by
  intro builder typed large
  obtain ⟨spelling, run⟩ := exists_functionProto_run result params builder
  have pushed := pushType_typesFrom typed (functionType_isMade given spelling large)
  exact ⟨run ▸ pushed.typed, run ▸ pushed.grows, run ▸ pushed.told⟩

theorem functionPointer_types : (functionPointer result params).Types bound known ([·]) := by
  intro builder typed large
  obtain ⟨spelling, run⟩ := exists_functionProto_run result params builder
  unfold functionPointer
  refine .of_run_bind_eq run (pushType_bind_typesFrom typed
    (functionType_isMade given spelling large) fun pushed => ?_)
  refine type_bind_typesFrom (pushType_typesFrom pushed
    (.of_around rfl (DeclTree.types_size_pushType ..).ge _ none ?_))
  rw [DeclTree.type_pushType_self]
  rfl

end

/-! ### Declarations -/

theorem modifyDecl_types (id : DeclId) {change : Decl → Decl}
    (same : ∀ decl, (change decl).underlyingType = decl.underlyingType) :
    (modifyDecl id change).Types bound known Build.untold := by
  have gives (builder : TreeBuilder) (other : DeclId) :
      ((builder.tree.modifyDecl id change).decl other).underlyingType =
        (builder.tree.decl other).underlyingType := by
    rw [DeclTree.decl_modifyDecl]
    split
    · exact same _
    · rfl
  exact .of_decls (fun _ => rfl) (fun _ => (DeclTree.size_modifyDecl ..).ge)
    (fun builder other _ => gives builder other)
    (fun builder typed _ other _ found => typed.gives ((gives builder other).symm.trans found))
    (fun _ => rfl) fun _ => rfl

theorem setFlag_types (id : DeclId) (flag : DeclFlag) (on : Bool) :
    (setFlag id flag on).Types bound known Build.untold :=
  modifyDecl_types id fun _ => rfl

theorem setType_types (id : DeclId) (type : TypeId) :
    (setType id type).Types bound known Build.untold :=
  modifyDecl_types id fun _ => rfl

theorem setResult_types (id : DeclId) (type : TypeId) :
    (setResult id type).Types bound known Build.untold :=
  modifyDecl_types id fun _ => rfl

theorem setReferenced_types (id target : DeclId) :
    (setReferenced id target).Types bound known Build.untold :=
  modifyDecl_types id fun _ => rfl

theorem refreshDisplay_types (template : DeclId) :
    (refreshDisplay template).Types bound known Build.untold := by
  unfold refreshDisplay
  exact .andThen .get fun _ => modifyDecl_types template fun _ => rfl

/-- A declaration that is not settled yet may be given a type that is there. -/
theorem setUnderlying_types {id : DeclId} (fresh : bound ≤ id) {type : TypeId}
    (inside : type < known) : (setUnderlying id type).Types bound known Build.untold := by
  refine .of_decls (fun _ => rfl) (fun _ => (DeclTree.size_modifyDecl ..).ge)
    (fun builder other settled => ?_) (fun builder typed large other given found => ?_)
    (fun _ => rfl) fun _ => rfl
  · change ((builder.tree.modifyDecl id _).decl other).underlyingType = _
    rw [DeclTree.decl_modifyDecl, if_neg fun both => (settled.trans_le fresh).ne both.1.symm]
  · change ((builder.tree.modifyDecl id _).decl other).underlyingType = _ at found
    rw [DeclTree.decl_modifyDecl] at found
    split at found
    · cases found
      exact inside.trans_le large
    · exact typed.gives found

/-- A declaration that is added is not settled. -/
theorem add_bind_types {parent : DeclId} (kind : DeclKind) (name : String) {rest : DeclId → Build α}
    (typesRest : ∀ id, bound ≤ id → (rest id).Types bound known tells) :
    (add parent kind name >>= rest).Types bound known tells := by
  have gives (builder : TreeBuilder) (id : DeclId) :
      (((add parent kind name).run builder).2.tree.decl id).underlyingType =
        (builder.tree.decl id).underlyingType := by
    change ((builder.tree.pushChild parent _).1.decl id).underlyingType = _
    rw [DeclTree.pushChild, DeclTree.decl_modifyDecl]
    split <;> exact DeclTree.underlyingType_pushDecl rfl id
  have added : (add parent kind name).Types bound known Build.untold :=
    .of_decls (fun _ => rfl) (fun _ => (DeclTree.size_pushChild ..).ge.trans' (Nat.le_succ _))
      (fun builder id _ => gives builder id)
      (fun builder typed _ id _ found => typed.gives ((gives builder id).symm.trans found))
      (fun _ => rfl) fun _ => rfl
  intro builder typed large
  obtain ⟨between, grows, -⟩ := added builder typed large
  obtain ⟨after, growsOn, told⟩ := typesRest builder.tree.size typed.settled _ between
    (large.trans grows)
  exact ⟨after, grows.trans growsOn, told⟩

theorem add_types {parent : DeclId} (kind : DeclKind) (name : String) :
    (add parent kind name).Types bound known Build.untold := by
  have types : (add parent kind name >>= Pure.pure).Types bound known Build.untold :=
    add_bind_types kind name fun id _ => .pure id nofun
  rwa [bind_pure] at types

section

variable (parent : DeclId) (name : String)

theorem inlineNamespace_types : (inlineNamespace parent name).Types bound known Build.untold := by
  unfold inlineNamespace
  exact add_bind_types _ _ fun id _ => .andThen (setFlag_types _ _ _) fun _ => .pure _ nofun

theorem linkageSpec_types : (linkageSpec parent).Types bound known Build.untold := by
  unfold linkageSpec
  exact add_bind_types _ _ fun id _ => .andThen (setFlag_types _ _ _) fun _ => .pure _ nofun

theorem forwardClass_types : (forwardClass parent name).Types bound known Build.untold := by
  unfold forwardClass
  exact add_bind_types _ _ fun id _ => .andThen (setFlag_types _ _ _) fun _ => .pure _ nofun

theorem typeParam_types : (typeParam parent name).Types bound known Build.untold := by
  unfold typeParam
  exact add_bind_types _ _ fun id _ => .andThen (refreshDisplay_types _) fun _ => .pure _ nofun

theorem nonTypeParam_types (type : TypeId) :
    (nonTypeParam parent name type).Types bound known Build.untold := by
  unfold nonTypeParam
  exact add_bind_types _ _ fun id _ => .andThen (setType_types _ _) fun _ =>
    .andThen (refreshDisplay_types _) fun _ => .pure _ nofun

theorem classTemplate_types (params : List String) :
    (classTemplate parent name params).Types bound known Build.untold := by
  unfold classTemplate
  refine add_bind_types _ _ fun id _ => .andThen (.forM (fun param => ?_) params) fun _ =>
    .andThen (refreshDisplay_types _) fun _ => .pure _ nofun
  exact .andThen (typeParam_types id param) fun _ => .pure _ nofun

theorem partialSpecialization_types (args : String) :
    (partialSpecialization parent name args).Types bound known Build.untold := by
  unfold partialSpecialization
  exact add_bind_types _ _ fun id _ =>
    .andThen (modifyDecl_types id fun _ => rfl) fun _ => .pure _ nofun

theorem typeRef_types (target : DeclId) :
    (typeRef parent target).Types bound known Build.untold := by
  unfold typeRef
  exact .andThen .get fun _ => add_bind_types _ _ fun id _ =>
    .andThen (setReferenced_types _ _) fun _ => .pure _ nofun

theorem templateRef_types (target : DeclId) :
    (templateRef parent target).Types bound known Build.untold := by
  unfold templateRef
  exact .andThen (decl_types _) fun _ => add_bind_types _ _ fun id _ =>
    .andThen (setReferenced_types _ _) fun _ => .pure _ nofun

theorem declRef_types (target : DeclId) :
    (declRef parent target).Types bound known Build.untold := by
  unfold declRef
  exact .andThen (decl_types _) fun _ => add_bind_types _ _ fun id _ =>
    .andThen (setReferenced_types _ _) fun _ => .pure _ nofun

theorem base_types (type : TypeId) : (base parent type).Types bound known Build.untold := by
  unfold base
  refine .andThen (type_types _) fun _ => add_bind_types _ _ fun id _ => ?_
  refine .andThen (setType_types _ _) fun _ => .andThen .get fun builder => ?_
  split
  · exact .pure _ nofun
  · exact .andThen (typeRef_types id _) fun _ => .pure _ nofun

theorem templateBase_types {template : DeclId} (inside : template < bound) (args : String) :
    (templateBase parent template args).Types bound known Build.untold := by
  unfold templateBase
  refine .andThen (decl_types _) fun _ => .bind (fun builder typed _ => pushType_typesFrom typed
    (.of_leaf _ rfl rfl fun decl known => ?_)) fun type _ _ _ => add_bind_types _ _ fun id _ => ?_
  · cases known
    exact inside
  · exact .andThen (setType_types _ _) fun _ => .andThen (templateRef_types id template) fun _ =>
      .pure _ nofun

/-- An enum gets the type of its values as soon as it is there. -/
theorem enumeration_types : (enumeration parent name).Types bound known Build.untold := by
  unfold enumeration
  exact add_bind_types _ _ fun id fresh => .bind (builtin_types _) fun _ _ _ told =>
    .andThen (setUnderlying_types fresh (told _ List.mem_cons_self)) fun _ => .pure _ nofun

theorem scopedEnumeration_types :
    (scopedEnumeration parent name).Types bound known Build.untold := by
  unfold scopedEnumeration
  exact .andThen (enumeration_types parent name) fun _ => .andThen (setFlag_types _ _ _) fun _ =>
    .pure _ nofun

theorem enumConstant_types (inside : parent < bound) :
    (enumConstant parent name).Types bound known Build.untold := by
  unfold enumConstant
  exact add_bind_types _ _ fun id _ => .bind (enumType_types inside) fun _ _ _ _ =>
    .andThen (setType_types _ _) fun _ => .pure _ nofun

theorem function_types (kind : DeclKind) (result : TypeId) :
    (function kind parent name result).Types bound known Build.untold := by
  unfold function
  exact add_bind_types _ _ fun id _ => .andThen (setResult_types _ _) fun _ => .pure _ nofun

theorem methodWith_types (flag : DeclFlag) (result : TypeId) :
    (methodWith flag parent name result).Types bound known Build.untold := by
  unfold methodWith
  exact .andThen (function_types parent name _ _) fun _ => .andThen (setFlag_types _ _ _) fun _ =>
    .pure _ nofun

theorem constructor_types : (constructor parent).Types bound known Build.untold := by
  unfold constructor
  exact .andThen (decl_types _) fun _ => add_bind_types _ _ fun id _ =>
    .bind (builtin_types _) fun _ _ _ _ => .andThen (setResult_types _ _) fun _ => .pure _ nofun

theorem destructor_types : (destructor parent).Types bound known Build.untold := by
  unfold destructor
  exact .andThen (decl_types _) fun _ => add_types _ _

theorem conversion_types (result : TypeId) :
    (conversion parent result).Types bound known Build.untold := by
  unfold conversion
  exact .andThen (type_types _) fun _ => add_bind_types _ _ fun id _ =>
    .andThen (setResult_types _ _) fun _ => .andThen (setFlag_types _ _ _) fun _ => .pure _ nofun

theorem param_types (type : TypeId) : (param parent name type).Types bound known Build.untold := by
  unfold param
  exact .andThen (type_types _) fun _ => add_bind_types _ _ fun id _ =>
    .andThen (modifyDecl_types id fun _ => rfl) fun _ => .pure _ nofun

theorem paramWithDefault_types (type : TypeId) (text : String) :
    (paramWithDefault parent name type text).Types bound known Build.untold := by
  unfold paramWithDefault
  exact .andThen (param_types parent name type) fun _ =>
    .andThen (modifyDecl_types _ fun _ => rfl) fun _ => .pure _ nofun

theorem field_types (type : TypeId) : (field parent name type).Types bound known Build.untold := by
  unfold field
  exact add_bind_types _ _ fun id _ => .andThen (setType_types _ _) fun _ => .pure _ nofun

theorem var_types (type : TypeId) : (var parent name type).Types bound known Build.untold := by
  unfold var
  exact .andThen (decl_types _) fun _ => add_bind_types _ _ fun id _ =>
    .andThen (setType_types _ _) fun _ => .andThen (setFlag_types _ _ _) fun _ => .pure _ nofun

theorem newTypedef_types (kind : DeclKind) {underlying : TypeId} (inside : underlying < known) :
    (newTypedef kind parent name underlying).Types bound known Build.untold := by
  unfold newTypedef
  exact add_bind_types _ _ fun id fresh => .andThen (setUnderlying_types fresh inside) fun _ =>
    .pure _ nofun

end

theorem specialization_types (template : DeclId) (args : String) :
    (specialization template args).Types bound known Build.untold := by
  have gives (builder : TreeBuilder) (id : DeclId) :
      (((specialization template args).run builder).2.tree.decl id).underlyingType =
        (builder.tree.decl id).underlyingType :=
    DeclTree.underlyingType_pushDecl rfl id
  exact .of_decls (fun _ => rfl) (fun _ => (DeclTree.size_pushDecl ..).ge.trans' (Nat.le_succ _))
    (fun builder id _ => gives builder id)
    (fun builder typed _ id _ found => typed.gives ((gives builder id).symm.trans found))
    (fun _ => rfl) fun _ => rfl

/-! ## Steps -/

/-- The declaration that a step is given besides the one that it adds to. -/
def Step.mentioned? : Step → Option DeclId
  | .setExtent id _ | .setAccess id _ | .specialization id _ | .templateBase _ id _ | .typeRef _ id
  | .templateRef _ id | .declRef _ id | .record id | .recordAs id _ | .named id | .enumType id
  | .namedEnum id | .typedefType id | .typedefTypeAs id _ | .templateParamType id => some id
  | _ => none

/-- The types that a step is given. -/
def Step.types : Step → List TypeId
  | .nonTypeParam _ _ type | .function _ _ _ type | .constMethod _ _ type | .staticMethod _ _ type
  | .conversion _ type | .param _ _ type | .paramWithDefault _ _ type _ | .field _ _ type
  | .var _ _ type | .newTypedef _ _ _ type | .base _ type | .derived _ type | .const type
  | .constRef type | .array type _ => [type]
  | .functionProto result params | .functionPointer result params => result :: params
  | _ => []

/-- Whether a type that a step makes by its kind is a pointer or reference, or has no parts. -/
def Step.hasKind : Step → Bool
  | .derived kind _ => kind == .pointer || kind.isReference
  | .leaf kind _ => kind == .unexposed || kind == .dependent
  | _ => true

/-- Whether all declarations and types that a step is given are there. -/
def Step.isGiven (builder : TreeBuilder) (step : Step) : Bool :=
  step.fits builder && step.mentioned?.all (· < builder.tree.size) &&
    step.types.all (· < builder.tree.types.size) && step.hasKind

/-- Whether each of some steps, carried out one after the other, is given what is there. -/
def allGiven (builder : TreeBuilder) : List Step → Bool
  | [] => true
  | step :: rest => step.isGiven builder && allGiven ((perform step).run builder).2 rest

theorem allFit_of_allGiven {builder : TreeBuilder} {steps : List Step}
    (given : allGiven builder steps = true) : allFit builder steps = true := by
  induction steps generalizing builder with
  | nil => rfl
  | cons step rest ih =>
      simp only [allGiven, Step.isGiven, Bool.and_eq_true] at given
      obtain ⟨⟨⟨⟨fits, -⟩, -⟩, -⟩, restGiven⟩ := given
      exact (Bool.and_eq_true _ _).mpr ⟨fits, ih restGiven⟩

theorem perform_types (step : Step)
    (inside : ∀ parent, step.parent? = some parent → parent < bound)
    (declared : ∀ id, step.mentioned? = some id → id < bound)
    (given : ∀ type ∈ step.types, type < known) (kind : step.hasKind = true) :
    (perform step).Types bound known Build.untold := by
  cases step with
  | inFile | inUnit | systemHeader =>
      exact .of_decls (fun _ => rfl) (fun _ => Nat.le_refl _) (fun _ _ _ => rfl)
        (fun _ typed _ _ _ found => typed.gives found) (fun _ => rfl) fun _ => rfl
  | setExtent | setAccess =>
      exact .andThen (modifyDecl_types _ fun _ => rfl) fun _ => .pure _ nofun
  | add => exact .map _ (add_types _ _)
  | inlineNamespace => exact .map _ (inlineNamespace_types _ _)
  | linkageSpec => exact .map _ (linkageSpec_types _)
  | forwardClass => exact .map _ (forwardClass_types _ _)
  | classTemplate => exact .map _ (classTemplate_types _ _ _)
  | typeParam => exact .map _ (typeParam_types _ _)
  | nonTypeParam => exact .map _ (nonTypeParam_types _ _ _)
  | partialSpecialization => exact .map _ (partialSpecialization_types _ _ _)
  | specialization => exact .map _ (specialization_types _ _)
  | enumeration => exact .map _ (enumeration_types _ _)
  | scopedEnumeration => exact .map _ (scopedEnumeration_types _ _)
  | enumConstant => exact .map _ (enumConstant_types _ _ (inside _ rfl))
  | macroDefinition => exact .map _ (add_types _ _)
  | function => exact .map _ (function_types _ _ _ _)
  | constMethod | staticMethod => exact .map _ (methodWith_types _ _ _ _)
  | constructor => exact .map _ (constructor_types _)
  | destructor => exact .map _ (destructor_types _)
  | conversion => exact .map _ (conversion_types _ _)
  | param => exact .map _ (param_types _ _ _)
  | paramWithDefault => exact .map _ (paramWithDefault_types _ _ _ _)
  | field => exact .map _ (field_types _ _ _)
  | var => exact .map _ (var_types _ _ _)
  | newTypedef => exact .map _ (newTypedef_types _ _ _ (given _ List.mem_cons_self))
  | base => exact .map _ (base_types _ _)
  | templateBase => exact .map _ (templateBase_types _ (declared _ rfl) _)
  | typeRef => exact .map _ (typeRef_types _ _)
  | templateRef => exact .map _ (templateRef_types _ _)
  | declRef => exact .map _ (declRef_types _ _)
  | builtin => exact .map _ (builtin_types _)
  | derived => exact .map _ (derived_types (given _ List.mem_cons_self) kind)
  | const => exact .map _ (const_types (given _ List.mem_cons_self))
  | constRef => exact .map _ (constRef_types (given _ List.mem_cons_self))
  | array => exact .map _ (array_types (given _ List.mem_cons_self) _)
  | record => exact .map _ (record_types (declared _ rfl))
  | recordAs => exact .map _ (recordAs_types (declared _ rfl) _)
  | named => exact .map _ (named_types (declared _ rfl))
  | enumType => exact .map _ (enumType_types (declared _ rfl))
  | namedEnum => exact .map _ (namedEnum_types (declared _ rfl))
  | typedefType => exact .map _ (typedefType_types (declared _ rfl))
  | typedefTypeAs => exact .map _ (typedefTypeAs_types (declared _ rfl) _)
  | templateParamType => exact .map _ (templateParamType_types (declared _ rfl))
  | leaf => exact .map _ (leaf_types kind _)
  | functionProto => exact .map _ (functionProto_types given)
  | functionPointer => exact .map _ (functionPointer_types given)

theorem performAll_isTyped {builder : TreeBuilder} (planted : builder.tree.IsPlanted)
    (typed : builder.IsTyped builder.tree.size) {steps : List Step}
    (given : allGiven builder steps = true) :
    (builder.performAll steps).IsTyped (builder.performAll steps).tree.size := by
  induction steps generalizing builder with
  | nil => exact typed
  | cons step rest ih =>
      simp only [allGiven, Step.isGiven, Bool.and_eq_true, List.all_eq_true] at given
      obtain ⟨⟨⟨⟨fits, mentioned⟩, types⟩, kind⟩, restGiven⟩ := given
      have inside : ∀ parent, step.parent? = some parent → parent < builder.tree.size := by
        intro parent adds
        rw [Step.fits, adds] at fits
        exact of_decide_eq_true fits
      have declared : ∀ id, step.mentioned? = some id → id < builder.tree.size := by
        intro id mentions
        rw [mentions] at mentioned
        exact of_decide_eq_true mentioned
      obtain ⟨plantedNext, grows⟩ :=
        perform_keeps step inside builder planted (Nat.le_refl _)
      have performed := perform_types step inside declared
        (fun type member => of_decide_eq_true (types type member)) kind builder typed
        (Nat.le_refl _)
      exact ih plantedNext (performed.typed.wider grows (Nat.le_refl _)) restGiven

theorem start_performAll_isTyped (path : String) {steps : List Step}
    (given : allGiven (start path) steps = true) :
    ((start path).performAll steps).IsTyped ((start path).performAll steps).tree.size :=
  performAll_isTyped DeclTree.empty_isPlanted (start_isTyped path) given

end TreeBuilder

end Bindery
