import MsgPack.Proofs.Formatter.Delegation
import MsgPack.Proofs.Reader.Depth

/-!
# How deep typed reads leave a reader

Formatters open structures and close them again, whether what lies inside is read or fails.  So
a value of any type leaves a reader as deep as it was, whatever becomes of it, if what the lookup
supplies does so.
-/

namespace MsgPack

namespace Lookup

variable {σ : Type} {lookup : Lookup σ}

/-- Whether nothing that a lookup supplies changes how deep a reader is. -/
def Steady (lookup : Lookup σ) : Prop :=
  ∀ read, lookup.Supplies read → Read.KeepsDepth read

/-- Whether what a lookup supplies is composed of elementary reads that open nothing, and no custom
formatter opens a structure for values of other types. -/
structure Shallow (lookup : Lookup σ) : Prop where
  composed : ∀ read, lookup.Supplies read → Read.Composed false false read
  lone : ∀ type, ¬lookup.Requests type

theorem Shallow.steady (shallow : lookup.Shallow) : lookup.Steady :=
  fun read supplies => (shallow.composed read supplies).keepsDepth

/-- Of a lookup that supplies nothing there is nothing to ask. -/
theorem Described.shallow (described : lookup.Described) : lookup.Shallow where
  composed _ supplies := absurd supplies described.not_supplies
  lone _ := described.not_requests

theorem Described.steady (described : lookup.Described) : lookup.Steady :=
  described.shallow.steady

end Lookup

namespace Decode

open Session

variable {σ α β : Type} {lookup : Lookup σ} {catalog : Catalog}

/-- A computation with the help of a lookup leaves every reader as deep as it was, whatever the
lookup remembers. -/
def KeepsDepth (read : Decode σ α) : Prop :=
  ∀ memory, Read.KeepsDepth (withMemory memory read)

namespace KeepsDepth

theorem of_ok {read : Decode σ α} (keeps : KeepsDepth read) {session after : Session Reader σ}
    {result : α} (ok : read session = .ok result after) : session.state.AsDeep after.state := by
  apply (keeps session.memory).of_ok
  rw [withMemory, ok]

theorem of_error {read : Decode σ α} (keeps : KeepsDepth read)
    {session after : Session Reader σ} {failure : Error}
    (error : read session = .error failure after) : session.state.AsDeep after.state := by
  apply (keeps session.memory).of_error
  rw [withMemory, error]

/-- A computation that leaves the reader alone. -/
theorem still {read : Decode σ α} (alone : ∀ session, (∃ result kept,
    read session = .ok result ⟨session.state, kept⟩) ∨ ∃ failure kept,
      read session = .error failure ⟨session.state, kept⟩) : KeepsDepth read := by
  intro memory reader
  rw [Read.left, withMemory]
  rcases alone ⟨reader, memory⟩ with ⟨result, kept, ends⟩ | ⟨failure, kept, ends⟩
  · rw [ends]
    exact .refl reader
  · rw [ends]
    exact .refl reader

theorem pure (result : α) : KeepsDepth (pure result : Decode σ α) :=
  still fun session => .inl ⟨result, session.memory, rfl⟩

theorem throw (failure : Error) : KeepsDepth (throw failure : Decode σ α) :=
  still fun session => .inr ⟨failure, session.memory, rfl⟩

/-- What follows a computation may rely on what this can give. -/
theorem bindOf {first : Decode σ α} {next : α → Decode σ β} (head : KeepsDepth first)
    (tail : ∀ found, (∃ session after, first session = .ok found after) →
      KeepsDepth (next found)) : KeepsDepth (first >>= next) := by
  intro memory reader
  rw [Read.left, withMemory]
  cases start : first ⟨reader, memory⟩ with
  | error failure middle =>
      rw [bind_of_error start]
      exact head.of_error start
  | ok found middle =>
      rw [bind_of_ok start]
      exact (head.of_ok start).trans (tail found ⟨_, _, start⟩ middle.memory middle.state)

theorem bind {first : Decode σ α} {next : α → Decode σ β} (head : KeepsDepth first)
    (tail : ∀ found, KeepsDepth (next found)) : KeepsDepth (first >>= next) :=
  head.bindOf fun found _ => tail found

theorem lift {read : Read α} (keeps : Read.KeepsDepth read) :
    KeepsDepth (lift read : Decode σ α) := by
  intro memory
  rw [withMemory_lift]
  exact keeps

theorem find (type : Schema) : KeepsDepth (find lookup type : Decode σ Formatter) := by
  apply still
  intro session
  simp only [Session.find]
  rcases lookup.find type session.memory with ⟨found, kept⟩
  cases found with
  | none => exact .inr ⟨_, _, rfl⟩
  | some formatter => exact .inl ⟨_, _, rfl⟩

theorem findThen {type : Schema} {next : Formatter → Decode σ α}
    (each : ∀ formatter, lookup.GivesOut formatter → KeepsDepth (next formatter)) :
    KeepsDepth (Session.find lookup type >>= next) := by
  apply (find type).bindOf
  rintro formatter ⟨session, after, ok⟩
  exact each formatter (givesOut_of_find ok)

theorem names (registry : Option Nat) :
    KeepsDepth (names lookup registry : Decode σ TypeRegistry) :=
  still fun session => .inl ⟨_, session.memory, rfl⟩

theorem namesThen {registry : Option Nat} {next : TypeRegistry → Decode σ α}
    (each : ∀ known, lookup.Keeps known → KeepsDepth (next known)) :
    KeepsDepth (Session.names lookup registry >>= next) := by
  apply (names registry).bindOf
  rintro known ⟨session, after, ok⟩
  exact each known (keeps_of_names ok)

/-- A structure is closed however the read of its inside ends. -/
theorem nested {inner : Decode σ α} (inside : KeepsDepth inner) : KeepsDepth (nested inner) := by
  intro memory
  rw [withMemory_nested]
  exact (inside memory).nested

end KeepsDepth

/-- What is left to reads that keep the depth keeps it. -/
theorem Delegates.keepsDepth (steady : lookup.Steady)
    {inner : Formatter → Schema → Decode σ Datum}
    (deeper : ∀ formatter type, lookup.GivesOut formatter → KeepsDepth (inner formatter type))
    {place : Place} {read : (Formatter → Schema → Decode σ Datum) → Decode σ α}
    (delegates : Delegates lookup place read) : KeepsDepth (read inner) := by
  induction delegates with
  | pure result => exact .pure result
  | throw _ => exact .throw _
  | bind _ _ head tail => exact head.bind tail
  | lift composed => exact .lift composed.keepsDepth
  | skip => exact .lift Read.composed_skip.keepsDepth
  | value => exact .lift Value.composed_read.keepsDepth
  | supplied supplies => exact .lift (steady _ supplies)
  | findThen _ each => exact .findThen each
  | namesThen _ each => exact .namesThen each
  | note registry type => exact .still fun session => .inl ⟨(), _, rfl⟩
  | inner given type => exact deeper _ type given
  | headThen composed _ _ tail => exact (KeepsDepth.lift composed.keepsDepth).bind tail
  | nested _ within => exact within.nested
  | request _ => exact .nested (.findThen fun _ given => deeper _ _ given)

/-- Whatever the budget of levels, values are read by computations that keep the depth. -/
theorem keepsDepth_within (steady : lookup.Steady) (budget : Nat) {formatter : Formatter}
    (given : lookup.GivesOut formatter) (type : Schema) :
    KeepsDepth (within lookup catalog budget formatter type) := by
  have delegates {formatter : Formatter} (given : lookup.GivesOut formatter) (type : Schema) :
      Delegates lookup .outside (layer lookup catalog formatter type) :=
    delegates_layer given type
  induction budget generalizing formatter type with
  | zero =>
      exact (delegates given type).keepsDepth steady fun _ _ _ =>
        .lift Read.keepsDepth_tooDeep
  | succ budget ih =>
      exact (delegates given type).keepsDepth steady fun _ type given => ih given type

theorem keepsDepth_datum (steady : lookup.Steady) {formatter : Formatter}
    (given : lookup.GivesOut formatter) (type : Schema) :
    KeepsDepth (datum lookup catalog formatter type) :=
  fun memory reader => keepsDepth_within steady reader.budget given type memory reader

/-- Reading a value of any type leaves a reader as deep as it was. -/
theorem keepsDepth_value (steady : lookup.Steady) (catalog : Catalog) (type : Schema) :
    KeepsDepth (value lookup catalog type) :=
  .findThen fun _ given => keepsDepth_datum steady given type

end Decode

end MsgPack
