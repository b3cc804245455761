import MsgPack.Proofs.Formatter.Resolver
import MsgPack.Proofs.Formatter.Simulation

/-!
# Lookups told from what happened

A tree of resolvers has its places in a row, from left to right, and whatever it answers can be
told from what happened before: the first place in the row that has a formatter answers, a registry
with its latest registration and a builtin place with the formatter that the type brings.

A store does not keep what happened.  It records it, if its registries hold their latest
registrations and its builtin places just the types for which they were reached, each with the
formatter that it brings.  Then it answers every question as it should, and records that it was
asked.
-/

namespace MsgPack

/-! ## Places in a row -/

/-- A place that a tree of resolvers asks. -/
inductive LeafResolver where
  | registry (name : String) (number : Nat)
  | builtin (number : Nat)
  deriving DecidableEq

/-- The name of a place. -/
def LeafResolver.name : LeafResolver → String
  | registry given _ => given
  | builtin _ => "builtin"

namespace Resolver

mutual

/-- The places of a tree, from left to right. -/
def leaves : Resolver → List LeafResolver
  | registry given number => [.registry given number]
  | builtin number => [.builtin number]
  | composite _ members => leavesOfAll members

/-- The places of several trees, from left to right. -/
def leavesOfAll : List Resolver → List LeafResolver
  | [] => []
  | member :: members => leaves member ++ leavesOfAll members

end

mutual

/-- The chain of a tree names its places from left to right. -/
theorem chain_eq : ∀ resolver, chain resolver = resolver.leaves.map LeafResolver.name
  | registry _ _ | builtin _ => rfl
  | composite _ members => chains_eq members

theorem chains_eq : ∀ members, chains members = (leavesOfAll members).map LeafResolver.name
  | [] => rfl
  | member :: members => by
      rw [chains, leavesOfAll, List.map_append, chain_eq member, chains_eq members]

end

end Resolver

/-! ## What happened -/

/-- Something that happened to places of formatters. -/
inductive Event where
  | registered (number : Nat) (type : Schema) (formatter : Formatter)
  | asked (resolver : Resolver) (type : Schema)

/-- The formatter that was registered for a type with a registry. -/
def Event.registered? (number : Nat) (type : Schema) : Event → Option Formatter
  | registered place known formatter =>
      if place = number ∧ known = type then some formatter else none
  | asked _ _ => none

/-- The formatter that was registered last for a type with a registry, after some events of which
the latest comes first. -/
def Event.latest? (number : Nat) (type : Schema) (events : List Event) : Option Formatter :=
  events.findSome? (Event.registered? number type)

theorem Event.latest?_registered (number : Nat) (type : Schema) (place : Nat) (known : Schema)
    (formatter : Formatter) (earlier : List Event) :
    latest? number type (registered place known formatter :: earlier) =
      if place = number ∧ known = type then some formatter else latest? number type earlier := by
  rw [latest?, List.findSome?_cons, registered?]
  by_cases same : place = number ∧ known = type
  · rw [if_pos same, if_pos same]
  · rw [if_neg same, if_neg same, latest?]

theorem Event.latest?_asked (number : Nat) (type : Schema) (resolver : Resolver) (wanted : Schema)
    (earlier : List Event) :
    latest? number type (asked resolver wanted :: earlier) = latest? number type earlier :=
  rfl

/-- What a place answers after some events, of which the latest comes first. -/
def LeafResolver.answer (catalog : Catalog) (events : List Event) (type : Schema) :
    LeafResolver → Option Formatter
  | registry _ number => Event.latest? number type events
  | builtin _ => catalog.formatter? type

/-- The places up to the first that answers, and this one. -/
def LeafResolver.upToAnswer (answer : LeafResolver → Option Formatter) :
    List LeafResolver → List LeafResolver
  | [] => []
  | leaf :: leaves => leaf :: if (answer leaf).isSome then [] else upToAnswer answer leaves

/-- What a tree answers after some events: what the first place answers that has an answer. -/
def Resolver.answer (catalog : Catalog) (events : List Event) (resolver : Resolver)
    (type : Schema) : Option Formatter :=
  resolver.leaves.findSome? (LeafResolver.answer catalog events type)

/-- The types for which a builtin place was reached, once for every question that came to it. -/
def Event.reached (catalog : Catalog) (number : Nat) : List Event → List Schema
  | [] => []
  | registered _ _ _ :: earlier => reached catalog number earlier
  | asked resolver type :: earlier =>
      if LeafResolver.builtin number ∈
          LeafResolver.upToAnswer (LeafResolver.answer catalog earlier type) resolver.leaves then
        type :: reached catalog number earlier
      else reached catalog number earlier

/-- What happened, the latest first, and the registries of names. -/
structure History where
  events : List Event
  names : TypeBooks

/-- The lookup that tells from what happened what a tree answers. -/
def History.lookup (catalog : Catalog) (resolver : Resolver) : Lookup History where
  find type history :=
    (resolver.answer catalog history.events type,
      { history with events := .asked resolver type :: history.events })
  names number history := history.names.registry number
  note number type history := { history with names := history.names.note number type }
  chain := resolver.leaves.map LeafResolver.name

/-! ## Looking along the row -/

/-- Looks for the formatter for a type in one place. -/
def LeafResolver.find (catalog : Catalog) (type : Schema) :
    LeafResolver → Store → Option Formatter × Store
  | registry _ number, store => (Dictionary.get? (store.formatters number) type, store)
  | builtin number, store => store.ask catalog number type

/-- Looks for the formatter for a type in some places, until one has it. -/
def LeafResolver.findFirst (catalog : Catalog) (type : Schema) :
    List LeafResolver → Store → Option Formatter × Store
  | [], store => (none, store)
  | leaf :: leaves, store =>
      match leaf.find catalog type store with
      | (some formatter, after) => (some formatter, after)
      | (none, after) => findFirst catalog type leaves after

section Rows

variable (catalog : Catalog) (type : Schema)

theorem LeafResolver.findFirst_append (leaves others : List LeafResolver) (store : Store) :
    findFirst catalog type (leaves ++ others) store =
      match findFirst catalog type leaves store with
      | (some formatter, after) => (some formatter, after)
      | (none, after) => findFirst catalog type others after := by
  induction leaves generalizing store with
  | nil => rfl
  | cons leaf leaves ih =>
      rw [List.cons_append, findFirst, findFirst]
      rcases leaf.find catalog type store with ⟨_ | formatter, after⟩
      · exact ih after
      · rfl

theorem LeafResolver.findFirst_singleton (leaf : LeafResolver) (store : Store) :
    findFirst catalog type [leaf] store = leaf.find catalog type store := by
  rw [findFirst]
  rcases leaf.find catalog type store with ⟨_ | formatter, after⟩ <;> rfl

mutual

/-- A tree asks its places from left to right. -/
theorem Resolver.find_eq : ∀ (resolver : Resolver) (store : Store),
    find catalog type resolver store = LeafResolver.findFirst catalog type resolver.leaves store
  | registry given number, store =>
      (LeafResolver.findFirst_singleton catalog type (.registry given number) store).symm
  | builtin number, store =>
      (LeafResolver.findFirst_singleton catalog type (.builtin number) store).symm
  | composite _ members, store => Resolver.findFirst_eq members store

theorem Resolver.findFirst_eq : ∀ (members : List Resolver) (store : Store),
    findFirst catalog type members store =
      LeafResolver.findFirst catalog type (leavesOfAll members) store
  | [], _ => rfl
  | member :: members, store => by
      rw [findFirst, leavesOfAll, LeafResolver.findFirst_append, Resolver.find_eq member store]
      rcases LeafResolver.findFirst catalog type member.leaves store with ⟨_ | formatter, after⟩
      · exact Resolver.findFirst_eq members after
      · rfl

end

end Rows

/-! ## What stores keep -/

namespace Store

/-- Builtin places keep just the types that were seen there, each once, with the formatters that
these bring. -/
structure Keeps (catalog : Catalog) (seen : Nat → Schema → Prop) (store : Store) : Prop where
  keys : ∀ number < store.builtins.length, ∀ type,
    type ∈ (store.asked number).map Prod.fst ↔ seen number type
  faithful : ∀ number type kept, Dictionary.get? (store.asked number) type = some kept →
    kept = catalog.formatter? type
  once : ∀ number, ((store.asked number).map Prod.fst).Nodup

/-- All that looking for formatters leaves alone. -/
structure SameBut (store after : Store) : Prop where
  registries : after.registries = store.registries
  builtins : after.builtins.length = store.builtins.length
  names : after.names = store.names

variable {catalog : Catalog} {store after : Store} {seen wider : Nat → Schema → Prop}

theorem SameBut.refl (store : Store) : SameBut store store :=
  ⟨rfl, rfl, rfl⟩

theorem SameBut.trans {last : Store} (first : SameBut store after) (second : SameBut after last) :
    SameBut store last :=
  ⟨second.registries.trans first.registries, second.builtins.trans first.builtins,
    second.names.trans first.names⟩

theorem Keeps.congr (keeps : Keeps catalog seen store)
    (same : ∀ number < store.builtins.length, ∀ type, seen number type ↔ wider number type) :
    Keeps catalog wider store :=
  ⟨fun number inside type => (keeps.keys number inside type).trans (same number inside type),
    keeps.faithful, keeps.once⟩

/-- What a builtin place was asked for after it was asked once more. -/
theorem asked_ask (catalog : Catalog) (store : Store) {number : Nat} {type : Schema}
    (new : Dictionary.get? (store.asked number) type = none) (place : Nat) :
    (store.ask catalog number type).2.asked place =
      if place = number ∧ number < store.builtins.length then
        (type, catalog.formatter? type) :: store.asked place
      else store.asked place := by
  have fresh := Dictionary.get?_eq_none.1 new
  simp only [ask, new]
  by_cases here : place = number
  · subst here
    by_cases inside : place < store.builtins.length
    · simp only [asked, List.getElem?_set_self inside, Option.getD_some, inside, and_self, if_true]
      exact Dictionary.insert_of_notMem fresh _
    · simp only [asked, inside, and_false, if_false,
        List.set_eq_of_length_le (Nat.le_of_not_lt inside)]
  · simp only [asked, List.getElem?_set_ne (Ne.symm here), here, false_and, if_false]

/-- A builtin place answers with the formatter that the type brings, and the type was seen. -/
theorem Keeps.ask (keeps : Keeps catalog seen store) (number : Nat) (type : Schema) :
    (store.ask catalog number type).1 = catalog.formatter? type ∧
      Keeps catalog (fun place wanted => place = number ∧ wanted = type ∨ seen place wanted)
        (store.ask catalog number type).2 ∧
      SameBut store (store.ask catalog number type).2 := by
  cases known : Dictionary.get? (store.asked number) type with
  | some kept =>
      have still : store.ask catalog number type = (kept, store) := by
        rw [Store.ask, known]
      have member : type ∈ (store.asked number).map Prod.fst := by
        rw [← Dictionary.isSome_get?, known]
        rfl
      rw [still]
      refine ⟨keeps.faithful number type kept known, keeps.congr ?_, .refl store⟩
      intro place inside wanted
      constructor
      · exact .inr
      · rintro (⟨rfl, rfl⟩ | before)
        · exact (keeps.keys place inside wanted).1 member
        · exact before
  | none =>
      have fresh := Dictionary.get?_eq_none.1 known
      have asked := asked_ask catalog store known
      have same : SameBut store (store.ask catalog number type).2 := by
        simp only [Store.ask, known]
        exact ⟨rfl, List.length_set, rfl⟩
      refine ⟨by rw [ask_fst, known, Option.getD_none], ⟨?_, ?_, ?_⟩, same⟩
      · intro place inside wanted
        rw [same.builtins] at inside
        rw [asked, ← keeps.keys place inside wanted]
        by_cases here : place = number
        · subst here
          rw [if_pos ⟨rfl, inside⟩, List.map_cons, List.mem_cons]
          simp only [true_and]
        · rw [if_neg fun both => here both.1]
          simp only [here, false_and, false_or]
      · intro place wanted kept found
        rw [asked] at found
        by_cases here : place = number ∧ number < store.builtins.length
        · rw [if_pos here, Dictionary.get?_cons] at found
          by_cases same : type = wanted
          · subst same
            rw [if_pos rfl] at found
            exact (Option.some.inj found).symm
          · rw [if_neg same] at found
            exact keeps.faithful place wanted kept found
        · rw [if_neg here] at found
          exact keeps.faithful place wanted kept found
      · intro place
        rw [asked]
        by_cases here : place = number ∧ number < store.builtins.length
        · rw [if_pos here, List.map_cons, List.nodup_cons, here.1]
          exact ⟨fresh, keeps.once number⟩
        · rw [if_neg here]
          exact keeps.once place

/-- What looking along a row of places finds, and which types were seen where then. -/
theorem Keeps.findFirst {type : Schema} (answer : LeafResolver → Option Formatter)
    (registered : ∀ given number,
      Dictionary.get? (store.formatters number) type = answer (.registry given number))
    (brought : ∀ number, catalog.formatter? type = answer (.builtin number))
    (keeps : Keeps catalog seen store) (leaves : List LeafResolver) :
    (LeafResolver.findFirst catalog type leaves store).1 = leaves.findSome? answer ∧
      Keeps catalog (fun place wanted =>
          wanted = type ∧ .builtin place ∈ LeafResolver.upToAnswer answer leaves ∨
            seen place wanted)
        (LeafResolver.findFirst catalog type leaves store).2 ∧
      SameBut store (LeafResolver.findFirst catalog type leaves store).2 := by
  induction leaves generalizing seen store with
  | nil => exact ⟨rfl, keeps.congr (by simp [LeafResolver.upToAnswer]), .refl store⟩
  | cons leaf leaves ih =>
      -- One place answers as it should, and is seen if it is a builtin one.
      have step : (leaf.find catalog type store).1 = answer leaf ∧
          Keeps catalog (fun place wanted => wanted = type ∧ .builtin place = leaf ∨
            seen place wanted) (leaf.find catalog type store).2 ∧
          SameBut store (leaf.find catalog type store).2 := by
        cases leaf with
        | registry given number =>
            exact ⟨registered given number, keeps.congr (by simp), .refl store⟩
        | builtin number =>
            obtain ⟨same, after, alike⟩ := keeps.ask number type
            refine ⟨same.trans (brought number), after.congr ?_, alike⟩
            simp [and_comm]
      rw [LeafResolver.findFirst, LeafResolver.upToAnswer, List.findSome?_cons]
      generalize leaf.find catalog type store = found at step ⊢
      obtain ⟨known, after⟩ := found
      obtain ⟨rfl, kept, alike⟩ := step
      cases known : answer leaf with
      | some formatter => exact ⟨rfl, kept.congr (by simp), alike⟩
      | none =>
          have still (given : String) (number : Nat) :
              Dictionary.get? (after.formatters number) type = answer (.registry given number) := by
            rw [formatters, alike.registries]
            exact registered given number
          obtain ⟨same, seen, rest⟩ := ih still kept
          refine ⟨same, seen.congr ?_, alike.trans rest⟩
          simp only [Option.isSome_none, Bool.false_eq_true, if_false, List.mem_cons]
          tauto

end Store

/-! ## Stores that record what happened -/

/-- A store records what happened: its registries hold what was registered last, its builtin places
keep the types for which they were reached, and the registries of names are the same. -/
structure Store.Records (catalog : Catalog) (registries builtins : Nat) (store : Store)
    (history : History) : Prop where
  registries_length : store.registries.length = registries
  builtins_length : store.builtins.length = builtins
  formatters : ∀ number type, Dictionary.get? (store.formatters number) type =
    Event.latest? number type history.events
  keeps : store.Keeps catalog fun number type => type ∈ Event.reached catalog number history.events
  names : store.names = history.names

/-- A store with so many registries and builtin places, of which none holds anything. -/
def Store.fresh (registries builtins : Nat) (names : TypeBooks) : Store :=
  ⟨List.replicate registries [], List.replicate builtins [], names⟩

namespace Store.Records

variable {catalog : Catalog} {registries builtins : Nat} {store : Store} {history : History}

/-- A store records that nothing happened. -/
theorem fresh (catalog : Catalog) (registries builtins : Nat) (names : TypeBooks) :
    Records catalog registries builtins (Store.fresh registries builtins names) ⟨[], names⟩ := by
  have formatters (number : Nat) :
      (Store.fresh registries builtins names).formatters number = [] := by
    simp only [Store.fresh, Store.formatters, List.getElem?_replicate]
    split <;> rfl
  have asked (number : Nat) : (Store.fresh registries builtins names).asked number = [] := by
    simp only [Store.fresh, Store.asked, List.getElem?_replicate]
    split <;> rfl
  refine ⟨List.length_replicate, List.length_replicate, ?_, ⟨?_, ?_, ?_⟩, rfl⟩
  · intro number type
    rw [formatters]
    rfl
  · intro number _ type
    rw [asked]
    exact Iff.rfl
  · intro number type kept found
    rw [asked] at found
    cases found
  · intro number
    rw [asked]
    exact .nil

/-- The registries of names may change without the other places. -/
theorem withNames (records : Records catalog registries builtins store history)
    (names : TypeBooks) :
    Records catalog registries builtins { store with names } { history with names } :=
  ⟨records.registries_length, records.builtins_length, records.formatters,
    ⟨records.keeps.keys, records.keeps.faithful, records.keeps.once⟩, rfl⟩

/-- A type that was dealt with is noted in the registries of names alone. -/
theorem note (records : Records catalog registries builtins store history) (number : Nat)
    (type : Schema) :
    Records catalog registries builtins { store with names := store.names.note number type }
      { history with names := history.names.note number type } := by
  rw [records.names]
  exact records.withNames _

/-- A question is answered from what happened, and recorded. -/
theorem find (records : Records catalog registries builtins store history) (resolver : Resolver)
    (type : Schema) :
    (resolver.find catalog type store).1 = resolver.answer catalog history.events type ∧
      Records catalog registries builtins (resolver.find catalog type store).2
        { history with events := .asked resolver type :: history.events } := by
  have registered (_ : String) (number : Nat) := records.formatters number type
  obtain ⟨same, keeps, alike⟩ :=
    records.keeps.findFirst (LeafResolver.answer catalog history.events type) registered
      (fun _ => rfl) resolver.leaves
  rw [Resolver.find_eq]
  refine ⟨same, alike.registries ▸ records.registries_length,
    alike.builtins.trans records.builtins_length, ?_, keeps.congr ?_, alike.names ▸ records.names⟩
  · intro number wanted
    rw [Event.latest?_asked, Store.formatters, alike.registries]
    exact records.formatters number wanted
  · intro number _ wanted
    rw [Event.reached]
    split
    · rename_i reached
      simp only [reached, and_true, List.mem_cons]
    · rename_i missed
      simp only [missed, and_false, false_or]

/-- A registry that there is answers with what was registered last. -/
theorem register (records : Records catalog registries builtins store history) {number : Nat}
    (there : number < registries) (type : Schema) (formatter : Formatter) :
    Records catalog registries builtins (store.register number type formatter)
      { history with events := .registered number type formatter :: history.events } := by
  refine ⟨?_, records.builtins_length, ?_,
    ⟨records.keeps.keys, records.keeps.faithful, records.keeps.once⟩, records.names⟩
  · rw [Store.register, List.length_set, records.registries_length]
  · intro place wanted
    rw [Event.latest?_registered, ← records.formatters place wanted]
    by_cases here : number = place
    · subst here
      have inside : number < store.registries.length := records.registries_length ▸ there
      have held : (store.register number type formatter).formatters number =
          Dictionary.insert (store.formatters number) type formatter := by
        rw [Store.register, Store.formatters, List.getElem?_set_self inside, Option.getD_some]
      rw [held, Dictionary.get?_insert]
      by_cases same : type = wanted
      · simp only [same, if_true, and_self]
      · simp only [same, if_false, and_false]
    · have held : (store.register number type formatter).formatters place =
          store.formatters place := by
        rw [Store.register, Store.formatters, List.getElem?_set_ne here]
        rfl
      simp only [held, here, false_and, if_false]

end Store.Records

/-- The lookup of a tree answers as is told from what happened, as long as the store records it. -/
theorem Resolver.mirrors_history (catalog : Catalog) (registries builtins : Nat)
    (resolver : Resolver) :
    (resolver.lookup catalog).Mirrors (History.lookup catalog resolver) True
      (Store.Records catalog registries builtins) where
  chain _ := chain_eq resolver
  find type records := records.find resolver type
  names number records := .of_eq (congrArg (TypeBooks.registry · number) records.names).symm
  note number type records := records.note number type

end MsgPack
