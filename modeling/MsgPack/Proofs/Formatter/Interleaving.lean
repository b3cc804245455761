import Mathlib.Data.List.Dedup
import MsgPack.Formatter.Codec
import MsgPack.Proofs.Formatter.History

/-!
# Registrations and lookups in any order

Formatters and type names are registered, formatters are looked up, and values are written and read,
in any order and with any trees of resolvers over the same places.  A store does this with what its
places keep; a history does it without, by what happened.  Every action has the same outcome with
both, so no answer is ever out of date, and at any time a builtin place keeps just the types for
which it was reached.
-/

namespace MsgPack

variable {σ : Type}

/-! ## Actions -/

/-- What can be done with places of formatters. -/
structure Places (σ : Type) where
  register : Nat → Schema → Formatter → σ → σ
  registerType : Option Nat → TypeHandle → σ → Except Error σ
  lookup : Resolver → Lookup σ

/-- The places of a store. -/
def Store.places (catalog : Catalog) : Places Store where
  register number type formatter store := store.register number type formatter
  registerType number handle store := store.registerType number handle
  lookup resolver := resolver.lookup catalog

/-- The places that are told from what happened. -/
def History.places (catalog : Catalog) : Places History where
  register number type formatter history :=
    { history with events := .registered number type formatter :: history.events }
  registerType number handle history := do
    return { history with names := ← history.names.register number handle }
  lookup resolver := lookup catalog resolver

/-- Something that is done with places of formatters. -/
inductive Action where
  | register (number : Nat) (type : Schema) (formatter : Formatter)
  /-- Registers a type name with a formatter of typeless values, or with the registry that all
  others share. -/
  | registerType (number : Option Nat) (handle : TypeHandle)
  | find (resolver : Resolver) (type : Schema)
  | serialize (resolver : Resolver) (type : Schema) (content : Datum) (writer : Writer)
  | deserialize (resolver : Resolver) (type : Schema) (reader : Reader)

/-- What is seen of an action. -/
inductive Outcome where
  | registered (result : Except Error Unit)
  | found (result : Except Error Formatter)
  | written (result : Except Error Unit) (writer : Writer)
  | read (result : Except Error Datum) (reader : Reader)

namespace Action

/-- Whether an action registers formatters only with registries that there are. -/
def There (registries : Nat) : Action → Prop
  | register number _ _ => number < registries
  | _ => True

/-- The formatter that an action registers for a type with a registry. -/
def registered? (number : Nat) (type : Schema) : Action → Option Formatter
  | register place known formatter =>
      if place = number ∧ known = type then some formatter else none
  | _ => none

/-- The outcome of an action, and the memory of the places afterwards. -/
def perform (places : Places σ) (catalog : Catalog) : Action → σ → Outcome × σ
  | register number type formatter, memory =>
      (.registered (.ok ()), places.register number type formatter memory)
  | registerType number handle, memory =>
      match places.registerType number handle memory with
      | .ok after => (.registered (.ok ()), after)
      | .error failure => (.registered (.error failure), memory)
  | find resolver type, memory =>
      let ended := Session.run (Session.find (places.lookup resolver) type) () memory
      (.found ended.1, ended.2.memory)
  | serialize resolver type content writer, memory =>
      let write := Encode.value (places.lookup resolver) catalog type content
      let ended := Session.run write writer memory
      (.written ended.1 ended.2.state, ended.2.memory)
  | deserialize resolver type reader, memory =>
      let ended := Session.run (Decode.value (places.lookup resolver) catalog type) reader memory
      (.read ended.1 ended.2.state, ended.2.memory)

/-- The outcomes of some actions, one after the other, and the memory of the places afterwards. -/
def run (places : Places σ) (catalog : Catalog) : List Action → σ → List Outcome × σ
  | [], memory => ([], memory)
  | action :: actions, memory =>
      let first := action.perform places catalog memory
      let others := run places catalog actions first.2
      (first.1 :: others.1, others.2)

/-! ## Stores and histories -/

section Records

variable {catalog : Catalog} {registries builtins : Nat} {store : Store} {history : History}

/-- An action has the same outcome with a store as with what happened, and the store records what
happens. -/
theorem perform_records (records : store.Records catalog registries builtins history)
    {action : Action} (there : action.There registries) :
    (action.perform (Store.places catalog) catalog store).1 =
        (action.perform (History.places catalog) catalog history).1 ∧
      (action.perform (Store.places catalog) catalog store).2.Records catalog registries builtins
        (action.perform (History.places catalog) catalog history).2 := by
  have mirrored (resolver : Resolver) :=
    Resolver.mirrors_history catalog registries builtins resolver
  cases action with
  | register number type formatter => exact ⟨rfl, records.register there type formatter⟩
  | registerType number handle =>
      simp only [perform, Store.places, History.places, Store.registerType, records.names]
      cases history.names.register number handle with
      | error failure => exact ⟨rfl, records⟩
      | ok entered => exact ⟨rfl, records.withNames entered⟩
  | find resolver type =>
      obtain ⟨same, _, still⟩ :=
        (Session.Mirrors.find (mirrored resolver) type).run records ()
      exact ⟨congrArg Outcome.found same, still⟩
  | serialize resolver type content writer =>
      obtain ⟨same, left, still⟩ :=
        (Encode.mirrors_value (mirrored resolver) catalog type content).run records writer
      exact ⟨congr (congrArg Outcome.written same) left, still⟩
  | deserialize resolver type reader =>
      obtain ⟨same, left, still⟩ :=
        (Decode.mirrors_value (mirrored resolver) catalog type).run records reader
      exact ⟨congr (congrArg Outcome.read same) left, still⟩

/-- So have any actions, one after the other. -/
theorem run_records {actions : List Action} (there : ∀ action ∈ actions, action.There registries)
    (records : store.Records catalog registries builtins history) :
    (run (Store.places catalog) catalog actions store).1 =
        (run (History.places catalog) catalog actions history).1 ∧
      (run (Store.places catalog) catalog actions store).2.Records catalog registries builtins
        (run (History.places catalog) catalog actions history).2 := by
  induction actions generalizing store history with
  | nil => exact ⟨rfl, records⟩
  | cons action actions ih =>
      obtain ⟨first, others⟩ := List.forall_mem_cons.1 there
      obtain ⟨same, after⟩ := perform_records records first
      obtain ⟨rest, last⟩ := ih others after
      exact ⟨congr (congrArg List.cons same) rest, last⟩

end Records

/-! ## Registrations -/

section Registrations

variable {catalog : Catalog} {history : History}

/-- A history that is looked at and nothing is registered in it answers as before. -/
def SameRegistrations (given : Nat → Schema → Option Formatter) (history image : History) : Prop :=
  image = history ∧ ∀ number type, Event.latest? number type history.events = given number type

/-- Looking for formatters registers none. -/
theorem mirrors_sameRegistrations (catalog : Catalog) (given : Nat → Schema → Option Formatter)
    (resolver : Resolver) :
    (History.lookup catalog resolver).Mirrors (History.lookup catalog resolver) True
      (SameRegistrations given) where
  chain _ := rfl
  find type same := by
    obtain ⟨rfl, known⟩ := same
    exact ⟨rfl, rfl, known⟩
  names registry same := by
    obtain ⟨rfl, _⟩ := same
    exact .of_eq rfl
  note number type same := by
    obtain ⟨rfl, known⟩ := same
    exact ⟨rfl, known⟩

/-- What was registered last is what an action registers, and else what was before. -/
theorem latest?_perform (action : Action) (number : Nat) (type : Schema) :
    Event.latest? number type (action.perform (History.places catalog) catalog history).2.events =
      (action.registered? number type).or (Event.latest? number type history.events) := by
  have same : SameRegistrations (fun number type => Event.latest? number type history.events)
      history history :=
    ⟨rfl, fun _ _ => rfl⟩
  have mirrored (resolver : Resolver) :=
    mirrors_sameRegistrations catalog
      (fun number type => Event.latest? number type history.events) resolver
  cases action with
  | register place known formatter =>
      rw [registered?]
      exact (Event.latest?_registered ..).trans (by split <;> rfl)
  | registerType place handle =>
      simp only [perform, History.places]
      cases history.names.register place handle <;> rfl
  | find resolver wanted =>
      have kept := ((Session.Mirrors.find (mirrored resolver) wanted).run same ()).2.2.2
      exact kept number type
  | serialize resolver wanted content writer =>
      exact ((Encode.mirrors_value (mirrored resolver) catalog wanted content).run same
        writer).2.2.2 number type
  | deserialize resolver wanted reader =>
      exact ((Decode.mirrors_value (mirrored resolver) catalog wanted).run same
        reader).2.2.2 number type

/-- After some actions, what was registered last is what the last action registered that did. -/
theorem latest?_run (actions : List Action) (number : Nat) (type : Schema) :
    Event.latest? number type (run (History.places catalog) catalog actions history).2.events =
      (actions.reverse.findSome? (registered? number type)).or
        (Event.latest? number type history.events) := by
  induction actions generalizing history with
  | nil => rfl
  | cons action actions ih =>
      rw [run, ih, latest?_perform, List.reverse_cons, List.findSome?_append,
        List.findSome?_singleton, Option.or_assoc]

end Registrations

end Action

/-! ## Builtin places -/

/-- A builtin place keeps as many answers as there are types for which it was reached. -/
theorem Store.Records.length_asked {catalog : Catalog} {registries builtins : Nat} {store : Store}
    {history : History} (records : store.Records catalog registries builtins history) {number : Nat}
    (there : number < builtins) :
    (store.asked number).length =
      (Event.reached catalog number history.events).dedup.length := by
  have inside : number < store.builtins.length := records.builtins_length ▸ there
  have same : ((store.asked number).map Prod.fst).Perm
      (Event.reached catalog number history.events).dedup := by
    apply (List.perm_ext_iff_of_nodup (records.keeps.once number) (List.nodup_dedup _)).2
    intro type
    rw [List.mem_dedup]
    exact records.keeps.keys number inside type
  rw [← same.length_eq, List.length_map]

/-! ## Trees of resolvers -/

namespace Resolver

/-- Whatever was done with the places of a store, in whatever order and with whatever trees of
resolvers, it had the outcomes that are told from what happened.  Afterwards every tree answers with
the formatter of the first place in its chain that has one: of a registry the one that was
registered last, of a builtin place the one that the type brings.  Where there is none, the report
names the places from left to right.  And a builtin place keeps as many answers as there are types
for which it was reached, whether it had a formatter for them or not. -/
theorem find_of_history (catalog : Catalog) (registries builtins : Nat) (names : TypeBooks)
    {actions : List Action} (there : ∀ action ∈ actions, action.There registries) :
    let store := Store.fresh registries builtins names
    let done := Action.run (Store.places catalog) catalog actions store
    let told := Action.run (History.places catalog) catalog actions ⟨[], names⟩
    done.1 = told.1 ∧
    (∀ (resolver : Resolver) (type : Schema),
      (resolver.find catalog type done.2).1 = resolver.answer catalog told.2.events type ∧
      ∀ {ρ : Type} (state : ρ),
        (Session.run (Session.find (resolver.lookup catalog) type) state done.2).1 =
          match resolver.answer catalog told.2.events type with
          | some formatter => .ok formatter
          | none =>
              .error (.formatterNotFound type.typeName (resolver.leaves.map LeafResolver.name))) ∧
    (∀ given number type, (LeafResolver.registry given number).answer catalog told.2.events type =
      actions.reverse.findSome? (Action.registered? number type)) ∧
    ∀ number < builtins, (done.2.asked number).length =
      (Event.reached catalog number told.2.events).dedup.length := by
  intro store done told
  obtain ⟨same, records⟩ :=
    Action.run_records there (Store.Records.fresh catalog registries builtins names)
  refine ⟨same, fun resolver type => ⟨(records.find resolver type).1, fun state => ?_⟩, ?_, ?_⟩
  · have answers := (records.find resolver type).1
    rw [← chain_eq, ← answers]
    simp only [Session.run, Session.find, lookup]
    rcases resolver.find catalog type done.2 with ⟨_ | formatter, after⟩ <;> rfl
  · intro given number type
    exact (Action.latest?_run actions number type).trans (Option.or_none ..)
  · exact fun number inside => records.length_asked inside

/-- A tree that reaches one builtin place in two ways, with registries before and between. -/
def shared : Resolver :=
  composite "outer" [composite "inner" [registry "first" 0, builtin 0], registry "second" 1,
    builtin 0]

/-- A type that nobody knows. -/
def unknown : Schema :=
  .named "Opaque"

/-- The builtin place is asked for a type; then another formatter is registered before it, a list is
written with that one, and a type is not found. -/
def overriding : List Action :=
  [.find shared (.scalar (.int .u8)),
    .register 0 (.scalar (.int .u8)) (.codec (Codec.forced .u8)),
    .serialize shared (.sequence .list (.scalar (.int .u8))) (.list [.atom (.int 7)]) Writer.empty,
    .find shared unknown]

/-- The late registration answers, the report names the builtin place twice, and this place keeps
three answers. -/
theorem find_of_history_overriding :
    let done := Action.run (Store.places .empty) .empty overriding
      (Store.fresh 2 1 ⟨[], .primitives⟩)
    (shared.find .empty (.scalar (.int .u8)) done.2).1 = some (.codec (Codec.forced .u8)) ∧
      (Session.run (Session.find (shared.lookup .empty) unknown) () done.2).1 =
        .error (.formatterNotFound "Opaque" ["first", "builtin", "second", "builtin"]) ∧
      (done.2.asked 0).length = 3 := by
  intro done
  have there : ∀ action ∈ overriding, action.There 2 := by
    simp only [overriding, List.forall_mem_cons]
    exact ⟨trivial, Nat.zero_lt_two, trivial, trivial, List.forall_mem_nil _⟩
  obtain ⟨_, answers, _, kept⟩ := find_of_history .empty 2 1 ⟨[], .primitives⟩ there
  exact ⟨(answers shared _).1.trans rfl, ((answers shared unknown).2 ()).trans rfl,
    (kept 0 Nat.one_pos).trans rfl⟩

end Resolver

end MsgPack
