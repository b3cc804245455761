import Mathlib.Data.Set.Card
import MsgPack.Formatter.TypeRegistry

/-!
# Registries of names as they grow

A registry starts empty or with the primitive types, and grows by registrations.  A
registration enters a type that is new in name and in kind into both dictionaries or changes
nothing, whether it is refused or repeats what was registered before.  So the dictionaries hold
the same types, each is the inverse of the other, and what a name or a type stands for never
changes.
-/

namespace MsgPack.TypeRegistry

variable {registry : TypeRegistry} {handle : TypeHandle} {handles : List TypeHandle}

/-! ## Registrations -/

/-- A registry after an attempt to register a type, whatever came of it. -/
def attempt (registry : TypeRegistry) (handle : TypeHandle) : TypeRegistry :=
  match register handle registry with
  | .ok () after => after
  | .error _ after => after

/-- A registry after attempts to register types, one after the other. -/
def after (registry : TypeRegistry) (handles : List TypeHandle) : TypeRegistry :=
  handles.foldl attempt registry

/-- Whether a registry comes about by registrations. -/
def Reachable (registry : TypeRegistry) : Prop :=
  ∃ handles, registry = empty.after handles ∨ registry = primitives.after handles

/-- A registration is refused if the name stands for another type or the type has another name,
repeats what is known, or enters a type that is new in name and in kind. -/
theorem register_cases (registry : TypeRegistry) (handle : TypeHandle) :
    (∃ holder, registry.byName? handle.name = some holder ∧
      (holder.type = handle.type ∧ register handle registry = .ok () registry ∨
        holder.type ≠ handle.type ∧
          ∃ failure, register handle registry = .error failure registry)) ∨
    (registry.byName? handle.name = none ∧
      ((∃ holder, registry.byType? handle.type = some holder ∧
          ∃ failure, register handle registry = .error failure registry) ∨
        registry.byType? handle.type = none ∧
          register handle registry = .ok () (registry.insert handle))) := by
  rw [register]
  cases registry.byName? handle.name with
  | some holder =>
      left
      refine ⟨holder, rfl, ?_⟩
      by_cases same : holder.type = handle.type
      · exact .inl ⟨same, if_pos same⟩
      · exact .inr ⟨same, _, if_neg same⟩
  | none =>
      right
      refine ⟨rfl, ?_⟩
      cases registry.byType? handle.type with
      | some holder => exact .inl ⟨holder, rfl, _, rfl⟩
      | none => exact .inr ⟨rfl, rfl⟩

/-- A registration changes nothing, or it enters a type that has no name yet under a name that
stands for no type yet. -/
theorem attempt_cases (registry : TypeRegistry) (handle : TypeHandle) :
    registry.attempt handle = registry ∨
      registry.byName? handle.name = none ∧ registry.byType? handle.type = none ∧
        registry.attempt handle = registry.insert handle := by
  rw [attempt]
  rcases registry.register_cases handle with
    ⟨_, _, ⟨_, repeats⟩ | ⟨_, _, refused⟩⟩ | ⟨freeName, ⟨_, _, _, refused⟩ | ⟨freeType, enters⟩⟩
  · exact .inl (by rw [repeats])
  · exact .inl (by rw [refused])
  · exact .inl (by rw [refused])
  · exact .inr ⟨freeName, freeType, by rw [enters]⟩

/-! ## What is there stays -/

theorem byName?_insert (registry : TypeRegistry) (handle : TypeHandle) (name : String) :
    (registry.insert handle).byName? name =
      if handle.name = name then some handle else registry.byName? name :=
  Dictionary.get?_insert _ _ _ _

theorem byType?_insert (registry : TypeRegistry) (handle : TypeHandle) (type : Schema) :
    (registry.insert handle).byType? type =
      if handle.type = type then some handle else registry.byType? type :=
  Dictionary.get?_insert _ _ _ _

/-- What a name stands for, it stands for after any registration. -/
theorem byName?_attempt {name : String} {known : TypeHandle}
    (stands : registry.byName? name = some known) (handle : TypeHandle) :
    (registry.attempt handle).byName? name = some known := by
  rcases registry.attempt_cases handle with same | ⟨free, _, added⟩
  · rwa [same]
  · have other : handle.name ≠ name := by
      rintro rfl
      rw [free] at stands
      cases stands
    rwa [added, byName?_insert, if_neg other]

/-- The name of a type stays its name. -/
theorem byType?_attempt {type : Schema} {known : TypeHandle}
    (stands : registry.byType? type = some known) (handle : TypeHandle) :
    (registry.attempt handle).byType? type = some known := by
  rcases registry.attempt_cases handle with same | ⟨_, free, added⟩
  · rwa [same]
  · have other : handle.type ≠ type := by
      rintro rfl
      rw [free] at stands
      cases stands
    rwa [added, byType?_insert, if_neg other]

/-- What a name stands for, it stands for after all further registrations. -/
theorem byName?_after {name : String} (known : registry.byName? name = some handle)
    (handles : List TypeHandle) : (registry.after handles).byName? name = some handle := by
  induction handles generalizing registry with
  | nil => exact known
  | cons first handles ih => exact ih (byName?_attempt known first)

theorem byType?_after {type : Schema} (known : registry.byType? type = some handle)
    (handles : List TypeHandle) : (registry.after handles).byType? type = some handle := by
  induction handles generalizing registry with
  | nil => exact known
  | cons first handles ih => exact ih (byType?_attempt known first)

theorem after_append (registry : TypeRegistry) (first second : List TypeHandle) :
    registry.after (first ++ second) = (registry.after first).after second :=
  List.foldl_append

/-! ## Names and types -/

/-- Whether both dictionaries of a registry hold just these types, of which no two have one name
and none stands twice. -/
structure Holds (registry : TypeRegistry) (handles : List TypeHandle) : Prop where
  names : registry.names = handles.map fun handle => (handle.name, handle)
  types : registry.types = handles.map fun handle => (handle.type, handle)
  distinctNames : (handles.map TypeHandle.name).Nodup
  distinctTypes : (handles.map TypeHandle.type).Nodup

/-- Of items with distinct keys, just the one with a given key is found. -/
theorem get?_eq_some_of_nodup {κ : Type} [DecidableEq κ] {key : TypeHandle → κ}
    (distinct : (handles.map key).Nodup) {wanted : κ} :
    Dictionary.get? (handles.map fun handle => (key handle, handle)) wanted = some handle ↔
      handle ∈ handles ∧ key handle = wanted := by
  induction handles with
  | nil => simp
  | cons first handles ih =>
      rw [List.map_cons, List.nodup_cons] at distinct
      rw [List.map_cons, Dictionary.get?_cons, List.mem_cons]
      by_cases here : key first = wanted
      · subst here
        have other (member : handle ∈ handles) : key handle ≠ key first := fun same =>
          distinct.1 (same ▸ List.mem_map_of_mem member)
        rw [if_pos rfl, Option.some.injEq]
        constructor
        · rintro rfl
          exact ⟨.inl rfl, rfl⟩
        · rintro ⟨rfl | member, same⟩
          · rfl
          · exact absurd same (other member)
      · rw [if_neg here, ih distinct.2]
        constructor
        · exact fun found => ⟨.inr found.1, found.2⟩
        · rintro ⟨rfl | member, same⟩
          · exact absurd same here
          · exact ⟨member, same⟩

namespace Holds

theorem empty : TypeRegistry.empty.Holds [] :=
  ⟨rfl, rfl, List.nodup_nil, List.nodup_nil⟩

theorem byName?_eq_some (holds : registry.Holds handles) {name : String} :
    registry.byName? name = some handle ↔ handle ∈ handles ∧ handle.name = name := by
  rw [byName?, holds.names, get?_eq_some_of_nodup holds.distinctNames]

theorem byType?_eq_some (holds : registry.Holds handles) {type : Schema} :
    registry.byType? type = some handle ↔ handle ∈ handles ∧ handle.type = type := by
  rw [byType?, holds.types, get?_eq_some_of_nodup holds.distinctTypes]

theorem keys (holds : registry.Holds handles) :
    registry.names.map Prod.fst = handles.map TypeHandle.name ∧
      registry.types.map Prod.fst = handles.map TypeHandle.type := by
  rw [holds.names, holds.types, List.map_map, List.map_map]
  exact ⟨rfl, rfl⟩

/-- A type that is new in name and in kind is entered into both dictionaries. -/
theorem insert (holds : registry.Holds handles)
    (freeName : handle.name ∉ handles.map TypeHandle.name)
    (freeType : handle.type ∉ handles.map TypeHandle.type) :
    (registry.insert handle).Holds (handle :: handles) := by
  have name : handle.name ∉ registry.names.map Prod.fst := by
    rwa [holds.keys.1]
  have type : handle.type ∉ registry.types.map Prod.fst := by
    rwa [holds.keys.2]
  constructor
  · rw [TypeRegistry.insert, Dictionary.insert_of_notMem name, holds.names]
    rfl
  · rw [TypeRegistry.insert, Dictionary.insert_of_notMem type, holds.types]
    rfl
  · exact List.nodup_cons.2 ⟨freeName, holds.distinctNames⟩
  · exact List.nodup_cons.2 ⟨freeType, holds.distinctTypes⟩

/-- So are several, one after the other. -/
theorem inserted (holds : registry.Holds handles) {others : List TypeHandle}
    (distinctNames : ((others.reverse ++ handles).map TypeHandle.name).Nodup)
    (distinctTypes : ((others.reverse ++ handles).map TypeHandle.type).Nodup) :
    (others.foldl TypeRegistry.insert registry).Holds (others.reverse ++ handles) := by
  induction others generalizing registry handles with
  | nil => exact holds
  | cons first others ih =>
      rw [List.reverse_cons, List.append_assoc, List.singleton_append]
        at distinctNames distinctTypes ⊢
      have later {κ : Type} {key : TypeHandle → κ}
          (distinct : ((others.reverse ++ first :: handles).map key).Nodup) :
          key first ∉ handles.map key := by
        rw [List.map_append, List.nodup_append] at distinct
        exact (List.nodup_cons.1 distinct.2.1).1
      exact ih (holds.insert (later distinctNames) (later distinctTypes)) distinctNames
        distinctTypes

theorem primitives : TypeRegistry.primitives.Holds (primitiveTypes.reverse ++ []) :=
  empty.inserted (by decide) (by decide)

end Holds

/-- Whether the dictionaries of a registry are the inverse of each other. -/
def OneToOne (registry : TypeRegistry) : Prop :=
  ∃ handles, registry.Holds handles

namespace OneToOne

/-- A registration enters only what was not there. -/
theorem attempt (oneToOne : registry.OneToOne) (handle : TypeHandle) :
    (registry.attempt handle).OneToOne := by
  rcases registry.attempt_cases handle with same | ⟨freeName, freeType, added⟩
  · rw [same]
    exact oneToOne
  · obtain ⟨handles, holds⟩ := oneToOne
    rw [byName?, Dictionary.get?_eq_none, holds.keys.1] at freeName
    rw [byType?, Dictionary.get?_eq_none, holds.keys.2] at freeType
    rw [added]
    exact ⟨handle :: handles, holds.insert freeName freeType⟩

theorem after (oneToOne : registry.OneToOne) (handles : List TypeHandle) :
    (registry.after handles).OneToOne := by
  induction handles generalizing registry with
  | nil => exact oneToOne
  | cons handle handles ih => exact ih (oneToOne.attempt handle)

/-- A name stands for a type under this name just if the type has this name. -/
theorem byName?_iff (oneToOne : registry.OneToOne) {name : String} {type : Schema} :
    registry.byName? name = some handle ∧ handle.type = type ↔
      registry.byType? type = some handle ∧ handle.name = name := by
  obtain ⟨handles, holds⟩ := oneToOne
  rw [holds.byName?_eq_some, holds.byType?_eq_some]
  tauto

/-- The name of a registered type stands for that type. -/
theorem byName?_of_byType? (oneToOne : registry.OneToOne) {type : Schema}
    (known : registry.byType? type = some handle) :
    registry.byName? handle.name = some handle :=
  (oneToOne.byName?_iff.2 ⟨known, rfl⟩).1

/-- As many names are known as types, and there are no others. -/
theorem encard_known (oneToOne : registry.OneToOne) :
    {name | (registry.byName? name).isSome}.encard = registry.size ∧
      {type | (registry.byType? type).isSome}.encard = registry.size := by
  obtain ⟨handles, holds⟩ := oneToOne
  have size : registry.size = handles.length := by
    rw [TypeRegistry.size, holds.types, List.length_map]
  have count {κ : Type} [DecidableEq κ] {key : TypeHandle → κ} {ask : κ → Option TypeHandle}
      (distinct : (handles.map key).Nodup) (asks : ∀ each, (ask each).isSome ↔
        each ∈ handles.map key) : {each | (ask each).isSome}.encard = handles.length := by
    have same : {each | (ask each).isSome} = ((handles.map key).toFinset : Set κ) := by
      ext each
      simp only [Set.mem_ofPred_eq, List.coe_toFinset, asks]
    rw [same, Set.encard_coe_eq_coe_finsetCard, List.toFinset_card_of_nodup distinct,
      List.length_map]
  rw [size]
  constructor
  · exact count holds.distinctNames fun name => by
      rw [byName?, Dictionary.isSome_get?, holds.keys.1]
  · exact count holds.distinctTypes fun type => by
      rw [byType?, Dictionary.isSome_get?, holds.keys.2]

end OneToOne

theorem Reachable.oneToOne (reachable : registry.Reachable) : registry.OneToOne := by
  obtain ⟨handles, rfl | rfl⟩ := reachable
  · exact OneToOne.after ⟨_, Holds.empty⟩ handles
  · exact OneToOne.after ⟨_, Holds.primitives⟩ handles

/-! ## Every registry -/

/-- Whether a name stands for a type. -/
def Pairs (registry : TypeRegistry) (name : String) (type : Schema) : Prop :=
  ∃ held, registry.byName? name = some held ∧ held.type = type

/-- A type is registered just if its name stands for it already or both are new. -/
theorem register_eq_ok_iff (registry : TypeRegistry) (handle : TypeHandle) :
    (∃ after, register handle registry = .ok () after) ↔
      registry.Pairs handle.name handle.type ∨
        registry.byName? handle.name = none ∧ registry.byType? handle.type = none := by
  rcases registry.register_cases handle with
    ⟨holder, taken, ⟨same, repeats⟩ | ⟨differs, _, refused⟩⟩ |
      ⟨freeName, ⟨holder, taken, _, refused⟩ | ⟨freeType, enters⟩⟩
  · exact iff_of_true ⟨registry, repeats⟩ (.inl ⟨holder, taken, same⟩)
  · simp [Pairs, refused, taken, differs]
  · simp [Pairs, refused, taken, freeName]
  · exact iff_of_true ⟨_, enters⟩ (.inr ⟨freeName, freeType⟩)

/-- A refused type changes nothing. -/
theorem eq_of_register_eq_error {failure : Error} {later : TypeRegistry}
    (refused : register handle registry = .error failure later) : later = registry := by
  rcases registry.register_cases handle with
    ⟨_, _, ⟨_, given⟩ | ⟨_, _, given⟩⟩ | ⟨_, ⟨_, _, _, given⟩ | ⟨_, given⟩⟩
  all_goals rw [refused] at given; cases given
  all_goals rfl

/-- A pair that is known already changes nothing. -/
theorem register_of_pairs (known : registry.Pairs handle.name handle.type) :
    register handle registry = .ok () registry := by
  obtain ⟨held, stands, same⟩ := known
  simp only [register, stands, if_pos same]

/-- After a registration that succeeds, the name stands for the type. -/
theorem pairs_of_register_eq_ok {later : TypeRegistry}
    (done : register handle registry = .ok () later) : later.Pairs handle.name handle.type := by
  rcases registry.register_cases handle with
    ⟨holder, taken, ⟨same, given⟩ | ⟨_, _, given⟩⟩ | ⟨_, ⟨_, _, _, given⟩ | ⟨_, given⟩⟩
  all_goals rw [done] at given; cases given
  · exact ⟨holder, taken, same⟩
  · exact ⟨handle, by rw [byName?_insert, if_pos rfl], rfl⟩

/-- Whatever was registered with it, a registry is a pairing of names and types.  It is as large
as either side.  A registration succeeds just if it repeats a pair or both its name and its type
are new, and then the pair is known; it changes nothing if it repeats a pair or is refused, and
never changes an answer that was given. -/
theorem names_pair_types (reachable : registry.Reachable) :
    (∀ name type held, registry.byName? name = some held ∧ held.type = type ↔
      registry.byType? type = some held ∧ held.name = name) ∧
    {name | (registry.byName? name).isSome}.encard = registry.size ∧
    {type | (registry.byType? type).isSome}.encard = registry.size ∧
    ∀ handle,
      ((∃ later, register handle registry = .ok () later) ↔
        registry.Pairs handle.name handle.type ∨
          registry.byName? handle.name = none ∧ registry.byType? handle.type = none) ∧
      (∀ later, register handle registry = .ok () later →
        later.Pairs handle.name handle.type) ∧
      (∀ failure later, register handle registry = .error failure later → later = registry) ∧
      (registry.Pairs handle.name handle.type → register handle registry = .ok () registry) ∧
      (∀ name held, registry.byName? name = some held →
        (registry.attempt handle).byName? name = some held) ∧
      (∀ type held, registry.byType? type = some held →
        (registry.attempt handle).byType? type = some held) := by
  have oneToOne := reachable.oneToOne
  refine ⟨fun name type held => oneToOne.byName?_iff, oneToOne.encard_known.1,
    oneToOne.encard_known.2, fun handle => ⟨registry.register_eq_ok_iff handle, ?_, ?_, ?_, ?_, ?_⟩⟩
  · intro later done
    exact pairs_of_register_eq_ok done
  · intro failure later refused
    exact eq_of_register_eq_error refused
  · exact register_of_pairs
  · intro name held known
    exact byName?_attempt known handle
  · intro type held known
    exact byType?_attempt known handle

/-- Of two further types, the second wants a name that is taken: sixteen names are known, and
it stays without one. -/
theorem names_pair_types_after_refusal :
    let registry := primitives.after [.of (.scalar .unit) "unit", .of (.scalar .bytes) "u8"]
    registry.byName? "unit" = some (.of (.scalar .unit) "unit") ∧
      {name | (registry.byName? name).isSome}.encard = 16 ∧
      ¬∃ later, register (.of (.scalar .bytes) "u8") registry = .ok () later := by
  have reachable : (primitives.after
      [.of (.scalar .unit) "unit", .of (.scalar .bytes) "u8"]).Reachable := ⟨_, .inr rfl⟩
  have size : (primitives.after
      [.of (.scalar .unit) "unit", .of (.scalar .bytes) "u8"]).size = 16 := by decide
  obtain ⟨pairing, names, _, registrations⟩ := names_pair_types reachable
  rw [size] at names
  have unit := (pairing "unit" (.scalar .unit) (.of (.scalar .unit) "unit")).2 ⟨rfl, rfl⟩
  refine ⟨unit.1, names, ?_⟩
  rw [(registrations _).1]
  rintro (⟨held, stands, same⟩ | ⟨free, _⟩)
  · have holder : held = .of (.scalar (.int .u8)) "u8" :=
      Option.some.inj (stands.symm.trans rfl)
    subst holder
    exact absurd same (by decide)
  · exact absurd free (by decide)

end MsgPack.TypeRegistry
