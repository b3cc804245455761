import MsgPack.Datum.Order
import MsgPack.Datum.Scalar
import MsgPack.Formatter.TypeRegistry
import MsgPack.Schema.Layout

/-!
# Formatters and where they are found

A formatter writes and reads the values of one type.  Most types bring a formatter of their
own, which follows from their description.  A *codec* is any other way to write and read a
type by itself; a *custom* formatter has the values inside its own written and read for it.  The
formatter of typeless values works with a registry of names.

A formatter never holds the formatters of the types inside its own.  It asks a *lookup* for
them when it needs them.  A lookup may remember what it was asked; what it remembers is its
memory, and is passed along with the writer or the reader.  The memory survives a failure.
-/

namespace MsgPack

/-- A way to write and read the values of one type. -/
structure Codec where
  write : Datum → Write Unit
  read : Read Datum

/-- A way to write and read the values of one type with the formatters of others.  To write a
value is to write its parts, by their numbers, as values of some types.  To read one is to read
values of some types, each inside a structure of its own. -/
structure CustomFormatter where
  write : Datum → WriteScript (Nat × Schema)
  read : ReadScript Datum

/-- The formatter for a type. -/
inductive Formatter where
  /-- The formatter that follows from the description of the type. -/
  | builtin
  | codec (codec : Codec)
  | custom (custom : CustomFormatter)
  /-- A formatter of typeless values with a registry of names of its own.  The formatter that
  follows from the description of their type works with the registry that all share. -/
  | typeless (registry : Nat)

/-- What is declared outside: the definitions of named types, the initial values of those that
have one, the order of the values of each type, and the registry of names that all share. -/
structure Catalog where
  definition? : String → Option (Definition Schema)
  initial : String → Datum
  /-- The order of the values of a type: sets and maps compare them by these lists of numbers,
  the first number that differs deciding.  So any two values compare, whatever order a type
  declares, and those with the same list are equal. -/
  sortKey : Schema → Datum → List Int
  shared : TypeRegistry
  /-- The shared registry leaves its types to formatters. -/
  plain : shared.Plain

/-- A catalog without types of its own, in which values compare part by part and the primitive
types have names. -/
def Catalog.empty : Catalog where
  definition? _ := none
  initial _ := .atom .unit
  sortKey _ := Datum.sortKey
  shared := .primitives
  plain := TypeRegistry.plain_primitives

/-- The formatter that a type brings; only a named type without definition brings none. -/
def Catalog.formatter? (catalog : Catalog) : Schema → Option Formatter
  | .named name => (catalog.definition? name).map fun _ => .builtin
  | _ => some .builtin

/-- A source of formatters with a memory of type `σ`. -/
structure Lookup (σ : Type) where
  /-- The formatter for a type, and the memory after the question. -/
  find : Schema → σ → Option Formatter × σ
  /-- The registry of names of a formatter of typeless values, or the one that all share. -/
  names : Option Nat → σ → TypeRegistry
  /-- The memory after a formatter of typeless values has dealt with a type. -/
  note : Nat → Schema → σ → σ
  /-- The names of the places that are asked, in order. -/
  chain : List String

namespace Lookup

/-- The memory after a formatter of typeless values has dealt with a type. -/
def noted {σ : Type} (lookup : Lookup σ) (registry : Option Nat) (type : Schema) (memory : σ) :
    σ :=
  match registry with
  | none => memory
  | some number => lookup.note number type memory

/-- The formatters that the types of a catalog bring, found without memory. -/
def standard (catalog : Catalog) : Lookup Unit where
  find type memory := (catalog.formatter? type, memory)
  names _ _ := catalog.shared
  note _ _ memory := memory
  chain := ["builtin"]

end Lookup

/-- What a formatter works on: a state of reading or writing, and the memory of the lookup. -/
structure Session (ρ σ : Type) where
  state : ρ
  memory : σ

/-- A computation that reads with the help of a lookup. -/
abbrev Decode (σ : Type) := EStateM Error (Session Reader σ)

/-- A computation that writes with the help of a lookup. -/
abbrev Encode (σ : Type) := EStateM Error (Session Writer σ)

namespace Session

variable {ρ σ α : Type}

/-- Reads or writes without the lookup. -/
def lift (step : EStateM Error ρ α) : EStateM Error (Session ρ σ) α := fun session =>
  match step session.state with
  | .ok result after => .ok result { session with state := after }
  | .error failure after => .error failure { session with state := after }

/-- Asks the lookup for a formatter. -/
def find (lookup : Lookup σ) (type : Schema) : EStateM Error (Session ρ σ) Formatter :=
  fun session =>
    match lookup.find type session.memory with
    | (some formatter, after) => .ok formatter { session with memory := after }
    | (none, after) =>
        .error (.formatterNotFound type.typeName lookup.chain) { session with memory := after }

/-- The registry of names of a formatter of typeless values. -/
def names (lookup : Lookup σ) (registry : Option Nat) :
    EStateM Error (Session ρ σ) TypeRegistry := fun session =>
  .ok (lookup.names registry session.memory) session

/-- Notes that a formatter of typeless values has dealt with a type. -/
def note (lookup : Lookup σ) (registry : Option Nat) (type : Schema) :
    EStateM Error (Session ρ σ) Unit := fun session =>
  .ok () { session with memory := lookup.noted registry type session.memory }

/-- Follows a script, where `respond` grants its requests. -/
def follow {request answer : Type} (respond : request → EStateM Error (Session ρ σ) answer) :
    Script ρ request answer α → EStateM Error (Session ρ σ) α
  | .done result => pure result
  | .fail failure => throw failure
  | .step action next => do follow respond (next (← lift action))
  | .ask wanted next => do follow respond (next (← respond wanted))

/-- Runs a computation that uses a lookup: the result, and what is left in either case. -/
def run (step : EStateM Error (Session ρ σ) α) (state : ρ) (memory : σ) :
    Except Error α × Session ρ σ :=
  match step ⟨state, memory⟩ with
  | .ok result after => (.ok result, after)
  | .error failure after => (.error failure, after)

/-- Reads or writes with a memory that is given at the start and dropped at the end. -/
def withMemory (memory : σ) (step : EStateM Error (Session ρ σ) α) : EStateM Error ρ α :=
  fun state =>
    match step ⟨state, memory⟩ with
    | .ok result after => .ok result after.state
    | .error failure after => .error failure after.state

end Session

end MsgPack
