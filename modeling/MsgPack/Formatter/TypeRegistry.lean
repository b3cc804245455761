import MsgPack.Collection.Dictionary
import MsgPack.Error
import MsgPack.Formatter.Script
import MsgPack.Schema.Name

/-!
# Names of types on the wire

A registry gives types the names under which their values travel.  It keeps two dictionaries,
one by names and one by types, and enters every type into both.  Registering a pair of a name
and a type that is already there changes nothing; a name or a type that is taken otherwise is
refused.  So no registration changes an answer that the registry gave before.
-/

namespace MsgPack

/-- A registered type: its name on the wire, and what is done with its values. -/
structure TypeHandle where
  type : Schema
  name : String
  delegates : TypelessDelegates

/-- A type that its own formatter handles, under a name. -/
def TypeHandle.of (type : Schema) (name : String) : TypeHandle :=
  ⟨type, name, .of type⟩

/-- Registered types. -/
structure TypeRegistry where
  /-- The registered type of each name. -/
  names : List (String × TypeHandle)
  /-- The registered form of each type. -/
  types : List (Schema × TypeHandle)

namespace TypeRegistry

/-- A registry without types. -/
def empty : TypeRegistry := ⟨[], []⟩

/-- How many types are registered. -/
def size (registry : TypeRegistry) : Nat :=
  registry.types.length

/-- The registered type of a name. -/
def byName? (registry : TypeRegistry) (name : String) : Option TypeHandle :=
  Dictionary.get? registry.names name

/-- The registered form of a type. -/
def byType? (registry : TypeRegistry) (type : Schema) : Option TypeHandle :=
  Dictionary.get? registry.types type

/-- Enters a type, whatever its name and the type stood for. -/
def insert (registry : TypeRegistry) (handle : TypeHandle) : TypeRegistry where
  names := Dictionary.insert registry.names handle.name handle
  types := Dictionary.insert registry.types handle.type handle

/-- Registers a type. -/
def register (handle : TypeHandle) : EStateM Error TypeRegistry Unit := fun registry =>
  match registry.byName? handle.name with
  | some holder =>
      if holder.type = handle.type then .ok () registry
      else .error (.invalidValue (.nameTaken handle.name holder.type.typeName)) registry
  | none =>
      match registry.byType? handle.type with
      | some holder =>
          .error (.invalidValue (.typeTaken handle.type.typeName holder.name)) registry
      | none => .ok () (registry.insert handle)

/-- The types that have a name from the start: truth values, numbers, characters and
text. -/
def primitiveTypes : List TypeHandle :=
  let int (range : IntRange) := TypeHandle.of (.scalar (.int range)) range.name
  [.of (.scalar .bool) "bool", int .u8, int .u16, int .u32, int .u64, int .usize, int .i8,
    int .i16, int .i32, int .i64, int .isize, .of (.scalar .float32) "f32",
    .of (.scalar .float64) "f64", .of (.scalar .char) "char", .of (.scalar .string) "String"]

/-- A registry of the types that have a name from the start. -/
def primitives : TypeRegistry :=
  primitiveTypes.foldl insert empty

/-! ## Registries of the library's own formatters -/

/-- Whether a registry has an entry. -/
def Has (registry : TypeRegistry) (handle : TypeHandle) : Prop :=
  (∃ name, registry.byName? name = some handle) ∨ ∃ type, registry.byType? type = some handle

/-- Whether every registered type is left to the formatter of some type. -/
def Plain (registry : TypeRegistry) : Prop :=
  ∀ handle, registry.Has handle → ∃ type, handle.delegates = .of type

theorem plain_empty : empty.Plain := by
  rintro handle (⟨name, none⟩ | ⟨type, none⟩) <;> cases none

theorem Plain.insert {registry : TypeRegistry} (plain : registry.Plain) {handle : TypeHandle}
    {type : Schema} (left : handle.delegates = .of type) : (registry.insert handle).Plain := by
  rintro other (⟨name, known⟩ | ⟨wanted, known⟩)
  · rw [byName?, TypeRegistry.insert, Dictionary.get?_insert] at known
    split at known
    · cases known
      exact ⟨type, left⟩
    · exact plain other (.inl ⟨name, known⟩)
  · rw [byType?, TypeRegistry.insert, Dictionary.get?_insert] at known
    split at known
    · cases known
      exact ⟨type, left⟩
    · exact plain other (.inr ⟨wanted, known⟩)

theorem plain_primitives : primitives.Plain := by
  have left : ∀ handle ∈ primitiveTypes, handle.delegates = .of handle.type := by
    simp [primitiveTypes, TypeHandle.of]
  have entered : ∀ (handles : List TypeHandle) (registry : TypeRegistry), registry.Plain →
      (∀ handle ∈ handles, handle.delegates = .of handle.type) →
      (handles.foldl TypeRegistry.insert registry).Plain := by
    intro handles
    induction handles with
    | nil => exact fun _ plain _ => plain
    | cons handle handles ih =>
        intro registry plain left
        rw [List.forall_mem_cons] at left
        exact ih _ (plain.insert left.1) left.2
  exact entered primitiveTypes empty plain_empty left

end TypeRegistry

end MsgPack
