import MsgPack.Proofs.Formatter.Delegation
import MsgPack.Proofs.Formatter.Standard

/-!
# Typed reads as compositions

Reading a value of any type is composed of elementary reads and of questions to the lookup, if
the lookup gives out only formatters that follow from descriptions: what a formatter leaves to
others is composed by induction on the budget of levels.

With the formatters that types bring themselves there is nothing to ask, and typed reads are
composed of elementary reads alone.
-/

namespace MsgPack

namespace Decode

open Session

/-- The reads that are composed of reads without the lookup and of questions to it.  What
follows an answer of the lookup matters only for the answers that it gives. -/
inductive Composed {σ : Type} (lookup : Lookup σ) : {α : Type} → Decode σ α → Prop where
  | pure {α : Type} (result : α) : Composed lookup (pure result)
  | throw {α : Type} {failure : Error} (placeless : failure.Placeless) :
      Composed lookup (throw failure : Decode σ α)
  | bind {α β : Type} {first : Decode σ α} {next : α → Decode σ β} (head : Composed lookup first)
      (tail : ∀ result, Composed lookup (next result)) : Composed lookup (first >>= next)
  | lift {α : Type} {read : Read α} (composed : Read.Composed true false read) :
      Composed lookup (lift read)
  | findThen {α : Type} {type : Schema} {next : Formatter → Decode σ α}
      (each : ∀ formatter, lookup.GivesOut formatter → Composed lookup (next formatter)) :
      Composed lookup (find lookup type >>= next)
  | namesThen {α : Type} {registry : Option Nat} {next : TypeRegistry → Decode σ α}
      (each : ∀ known, lookup.Keeps known → Composed lookup (next known)) :
      Composed lookup (names lookup registry >>= next)
  | note (registry : Option Nat) (type : Schema) : Composed lookup (note lookup registry type)
  | nested {α : Type} {inner : Decode σ α} (inside : Composed lookup inner) :
      Composed lookup (nested inner)
  | withBudget {α : Type} {read : Nat → Decode σ α}
      (within : ∀ budget, Composed lookup (read budget)) :
      Composed lookup fun session => read session.state.budget session

variable {σ α β : Type} {lookup : Lookup σ} {catalog : Catalog}

/-! ## Any type -/

/-- What is left to composed reads is composed, if none of it is left to codecs. -/
theorem Delegates.composed (described : lookup.Described)
    {inner : Formatter → Schema → Decode σ Datum}
    (deeper : ∀ formatter type, lookup.GivesOut formatter → Composed lookup (inner formatter type))
    {place : Place} {read : (Formatter → Schema → Decode σ Datum) → Decode σ α}
    (delegates : Delegates lookup place read) : Composed lookup (read inner) := by
  induction delegates with
  | pure result => exact .pure result
  | throw placeless => exact .throw placeless
  | bind _ _ head tail => exact head.bind tail
  | lift composed => exact .lift composed.deeper
  | skip => exact .lift Read.composed_skip
  | value => exact .lift Value.composed_read
  | supplied supplies => exact absurd supplies described.not_supplies
  | findThen _ each => exact .findThen each
  | namesThen _ each => exact .namesThen each
  | note registry type => exact .note registry type
  | inner given type => exact deeper _ type given
  | headThen composed _ _ tail => exact (Composed.lift composed.deeper).bind tail
  | nested _ within => exact within.nested
  | request requests => exact absurd requests described.not_requests

/-- Values are read by composed reads under any budget of levels. -/
theorem composed_within (described : lookup.Described) (budget : Nat) {formatter : Formatter}
    (given : lookup.GivesOut formatter) (type : Schema) :
    Composed lookup (within lookup catalog budget formatter type) := by
  have delegates {formatter : Formatter} (given : lookup.GivesOut formatter) (type : Schema) :
      Delegates lookup .outside (layer lookup catalog formatter type) :=
    delegates_layer given type
  induction budget generalizing formatter type with
  | zero => exact (delegates given type).composed described fun _ _ _ => .lift .tooDeep
  | succ budget ih =>
      exact (delegates given type).composed described fun _ type given => ih given type

/-- Values of any type are read by composed reads. -/
theorem composed_value (described : lookup.Described) (catalog : Catalog) (type : Schema) :
    Composed lookup (value lookup catalog type) :=
  .findThen fun _ given => .withBudget fun budget => composed_within described budget given type

/-! ## Without a memory -/

theorem composed_known (catalog : Catalog) (type : Schema) :
    Read.Composed true false (catalog.known type) :=
  (Read.Composed.pure ()).ite (.throw trivial)

/-- Questions for the formatters that types bring themselves are checks that need no reader, so
what is left without the memory is composed of elementary reads. -/
theorem Composed.withoutMemory {read : Decode Unit α}
    (composed : Composed (.standard catalog) read) :
    Read.Composed true false (withMemory () read) := by
  induction composed with
  | pure result => exact .pure result
  | throw placeless => exact .throw placeless
  | bind _ _ head tail =>
      rw [withMemory_bind]
      exact head.bind tail
  | lift composed =>
      rw [withMemory_lift]
      exact composed
  | findThen _ each =>
      simp only [withMemory_bind, withMemory_find, bind_assoc, pure_bind]
      exact (composed_known catalog _).bind fun _ => each .builtin ⟨.typeless, (), rfl⟩
  | namesThen _ each => exact each _ ⟨none, (), rfl⟩
  | note registry type => cases registry <;> exact .pure _
  | nested _ inside =>
      rw [withMemory_nested]
      exact inside.nested
  | withBudget _ within => exact .withBudget within

end Decode

/-- Values of any type are read by composed reads. -/
theorem Read.composed_datum (catalog : Catalog) (type : Schema) :
    Composed true false (Read.datum catalog type) :=
  (Decode.composed_value (Lookup.described_standard catalog) catalog type).withoutMemory

end MsgPack
