import MsgPack.Formatter.Basic

/-!
# Resolvers

A resolver is a tree of places where a formatter is looked for.  A *registry* knows the
formatters that were registered with it, of several for one type the latest.  A *builtin*
place knows the formatter that a type brings, and keeps what it was asked for.  A *composite*
asks its members in order, and the first that knows a formatter answers.

What registries and builtin places hold lives in a store, so that places may be shared
between trees and every tree sees the latest registration.
-/

namespace MsgPack

/-- A tree of places where formatters are looked for. -/
inductive Resolver where
  /-- A registry of the store. -/
  | registry (name : String) (number : Nat)
  /-- A builtin place of the store. -/
  | builtin (number : Nat)
  | composite (name : String) (members : List Resolver)

/-- A registry of type names, and the types that a formatter has dealt with. -/
structure TypeBook where
  registry : TypeRegistry
  /-- The types that the formatter has dealt with, each once. -/
  dealt : List Schema

/-- The registries of type names: those of formatters of typeless values, and the one that all
others share. -/
structure TypeBooks where
  books : List TypeBook
  shared : TypeRegistry

namespace TypeBooks

/-- The registry of a formatter of typeless values, or the one that all others share. -/
def registry (names : TypeBooks) : Option Nat → TypeRegistry
  | none => names.shared
  | some number =>
      match names.books[number]? with
      | some book => book.registry
      | none => TypeRegistry.empty

/-- How many types a formatter of typeless values has dealt with. -/
def dealtCount (names : TypeBooks) (number : Nat) : Nat :=
  match names.books[number]? with
  | some book => book.dealt.length
  | none => 0

/-- Notes that a formatter of typeless values has dealt with a type. -/
def note (names : TypeBooks) (number : Nat) (type : Schema) : TypeBooks :=
  match names.books[number]? with
  | none => names
  | some book =>
      if type ∈ book.dealt then names
      else
        let changed : TypeBook := { book with dealt := type :: book.dealt }
        { names with books := names.books.set number changed }

/-- Puts a registry in the place of another one. -/
def replace (names : TypeBooks) (registry : TypeRegistry) : Option Nat → TypeBooks
  | none => { names with shared := registry }
  | some number =>
      { names with books := names.books.modify number fun book => { book with registry } }

/-- Registers a type name.  A refused registration changes nothing. -/
def register (names : TypeBooks) (number : Option Nat) (handle : TypeHandle) :
    Except Error TypeBooks :=
  match TypeRegistry.register handle (names.registry number) with
  | .ok () registry => .ok (names.replace registry number)
  | .error failure _ => .error failure

end TypeBooks

/-- What resolvers hold. -/
structure Store where
  /-- The formatters of each registry, each type once. -/
  registries : List (List (Schema × Formatter))
  /-- What each builtin place was asked for, each type once, and what it answered. -/
  builtins : List (List (Schema × Option Formatter))
  names : TypeBooks

namespace Store

/-- A store without contents, in which the primitive types have names. -/
def empty : Store := ⟨[], [], ⟨[], .primitives⟩⟩

/-! ## Registries -/

/-- The formatters of a registry. -/
def formatters (store : Store) (number : Nat) : List (Schema × Formatter) :=
  store.registries[number]?.getD []

/-- Adds a registry; the result is its number. -/
def addRegistry (store : Store) : Nat × Store :=
  (store.registries.length, { store with registries := store.registries ++ [[]] })

/-- Registers a formatter, in place of any that the registry had for the type. -/
def register (store : Store) (number : Nat) (type : Schema) (formatter : Formatter) : Store :=
  let formatters := Dictionary.insert (store.formatters number) type formatter
  { store with registries := store.registries.set number formatters }

/-- Whether a registry has a formatter for a type. -/
def contains (store : Store) (number : Nat) (type : Schema) : Bool :=
  (Dictionary.get? (store.formatters number) type).isSome

/-! ## Builtin places -/

/-- What a builtin place was asked for. -/
def asked (store : Store) (number : Nat) : List (Schema × Option Formatter) :=
  store.builtins[number]?.getD []

/-- Adds a builtin place; the result is its number. -/
def addBuiltin (store : Store) : Nat × Store :=
  (store.builtins.length, { store with builtins := store.builtins ++ [[]] })

/-- Asks a builtin place. -/
def ask (catalog : Catalog) (store : Store) (number : Nat) (type : Schema) :
    Option Formatter × Store :=
  match Dictionary.get? (store.asked number) type with
  | some known => (known, store)
  | none =>
      let built := catalog.formatter? type
      let asked := Dictionary.insert (store.asked number) type built
      (built, { store with builtins := store.builtins.set number asked })

/-! ## Formatters of typeless values -/

/-- Adds a formatter of typeless values with its registry of names. -/
def addTypeless (store : Store) (registry : TypeRegistry) : Formatter × Store :=
  let names := { store.names with books := store.names.books ++ [⟨registry, []⟩] }
  (.typeless store.names.books.length, { store with names })

/-- Registers a type name with a formatter of typeless values, or with the registry that all others
share. -/
def registerType (store : Store) (number : Option Nat) (handle : TypeHandle) :
    Except Error Store := do
  return { store with names := ← store.names.register number handle }

end Store

namespace Resolver

/-- The name of a resolver. -/
def name : Resolver → String
  | registry given _ => given
  | builtin _ => "builtin"
  | composite given _ => given

mutual

/-- The names of the places that are asked, in order. -/
def chain : Resolver → List String
  | registry given _ => [given]
  | builtin _ => ["builtin"]
  | composite _ members => chains members

/-- The names of the places in several trees. -/
def chains : List Resolver → List String
  | [] => []
  | member :: members => chain member ++ chains members

end

mutual

/-- Looks for the formatter for a type. -/
def find (catalog : Catalog) (type : Schema) : Resolver → Store → Option Formatter × Store
  | registry _ number, store => (Dictionary.get? (store.formatters number) type, store)
  | builtin number, store => store.ask catalog number type
  | composite _ members, store => findFirst catalog type members store

/-- Looks for the formatter for a type in several trees, until one has it. -/
def findFirst (catalog : Catalog) (type : Schema) :
    List Resolver → Store → Option Formatter × Store
  | [], store => (none, store)
  | member :: members, store =>
      match find catalog type member store with
      | (some formatter, after) => (some formatter, after)
      | (none, after) => findFirst catalog type members after

end

/-- The lookup that asks a resolver. -/
def lookup (catalog : Catalog) (resolver : Resolver) : Lookup Store where
  find type store := find catalog type resolver store
  names number store := store.names.registry number
  note number type store := { store with names := store.names.note number type }
  chain := chain resolver

/-- The usual resolver: a builtin place, after any others that are given. -/
def standard (first : List Resolver) (builtinPlace : Nat) : Resolver :=
  composite "standard" (first ++ [builtin builtinPlace])

end Resolver

end MsgPack
