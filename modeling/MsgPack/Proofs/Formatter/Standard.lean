import MsgPack.Formatter.Standard

/-!
# Formatters without a memory

The formatters that types bring themselves are found without a memory, and every one of them
follows from the description of its type.  So reading and writing with them is reading and
writing alone: dropping the memory commutes with composition, and asking for a formatter is
a check that the type is known.
-/

namespace MsgPack

/-- Fails for a type that brings no formatter. -/
def Catalog.known {ρ : Type} (catalog : Catalog) (type : Schema) : EStateM Error ρ Unit :=
  if (catalog.formatter? type).isSome then pure ()
  else throw (.formatterNotFound type.typeName ["builtin"])

/-- The formatter that a type brings follows from its description. -/
theorem Catalog.eq_builtin_of_formatter? {catalog : Catalog} {type : Schema}
    {formatter : Formatter} (found : catalog.formatter? type = some formatter) :
    formatter = .builtin := by
  cases type with
  | named name =>
      simp only [Catalog.formatter?, Option.map_eq_some_iff] at found
      rcases found with ⟨_, _, rfl⟩
      rfl
  | _ => exact (Option.some.inj found).symm

namespace Session

variable {ρ α β : Type}

@[simp]
theorem withMemory_pure (result : α) :
    withMemory () (pure result : EStateM Error (Session ρ Unit) α) = pure result :=
  rfl

@[simp]
theorem withMemory_bind (first : EStateM Error (Session ρ Unit) α)
    (next : α → EStateM Error (Session ρ Unit) β) :
    withMemory () (first >>= next) = (do withMemory () (next (← withMemory () first))) := by
  funext state
  simp only [withMemory, bind, EStateM.bind]
  cases first ⟨state, ()⟩ <;> rfl

@[simp]
theorem withMemory_lift {σ : Type} (memory : σ) (step : EStateM Error ρ α) :
    withMemory memory (lift step : EStateM Error (Session ρ σ) α) = step := by
  funext state
  simp only [withMemory, lift]
  cases step state <;> rfl

@[simp]
theorem withMemory_ite {condition : Prop} [Decidable condition]
    (yes no : EStateM Error (Session ρ Unit) α) :
    withMemory () (if condition then yes else no) =
      if condition then withMemory () yes else withMemory () no := by
  split <;> rfl

@[simp]
theorem withMemory_times (item : EStateM Error (Session ρ Unit) α) (count : Nat) :
    withMemory () (Loop.times count item) = Loop.times count (withMemory () item) := by
  induction count with
  | zero => rfl
  | succ count ih => simp only [Loop.times_succ, withMemory_bind, withMemory_pure, ih]

/-- A formatter that is found follows from the description of the type. -/
@[simp]
theorem withMemory_find (catalog : Catalog) (type : Schema) :
    withMemory () (find (.standard catalog) type : EStateM Error (Session ρ Unit) Formatter) =
      (do
        catalog.known type
        return .builtin) := by
  funext state
  simp only [withMemory, find, Lookup.standard, Catalog.known]
  cases found : catalog.formatter? type with
  | none => rfl
  | some formatter =>
      rw [Catalog.eq_builtin_of_formatter? found]
      rfl

/-- Opening a nested structure needs no memory. -/
@[simp]
theorem withMemory_nested {σ : Type} (memory : σ) (inner : Decode σ α) :
    withMemory memory (Decode.nested inner) = Read.nested (withMemory memory inner) := by
  funext reader
  simp only [withMemory, Decode.nested, Read.nested]
  cases Read.enterNested reader with
  | error failure after => rfl
  | ok opened entered =>
      dsimp only
      cases inner ⟨entered, memory⟩ <;> rfl

end Session

namespace Decode

open Session

variable {catalog : Catalog}

/-- What reads the values one level deeper, where `budget` more levels may be opened. -/
def inside (catalog : Catalog) : Nat → Formatter → Schema → Decode Unit Datum
  | 0 => fun _ _ => lift Read.tooDeep
  | budget + 1 => within (.standard catalog) catalog budget

/-- Values are read as the description of their type says. -/
theorem within_builtin (budget : Nat) (type : Schema) :
    within (.standard catalog) catalog budget .builtin type =
      shaped (.standard catalog) catalog (inside catalog budget) type := by
  cases budget <;> rfl

end Decode

/-- A value of a type is read with the budget of levels that the reader has. -/
theorem Read.datum_eq (catalog : Catalog) (type : Schema) :
    Read.datum catalog type = fun reader =>
      (do
        catalog.known type
        Session.withMemory ()
          (Decode.within (.standard catalog) catalog reader.budget .builtin type)) reader := by
  funext reader
  simp only [Read.datum, Decode.value, Session.withMemory_bind, Session.withMemory_find,
    bind_assoc, pure_bind]
  simp only [bind, EStateM.bind]
  by_cases known : (catalog.formatter? type).isSome
  · simp only [Catalog.known, known, if_true]
    rfl
  · simp only [Catalog.known, known]
    rfl

end MsgPack
