import MsgPack.Proofs.Formatter.Standard
import MsgPack.Proofs.Reader.Grammar

/-!
# Computations with the help of a lookup

What a computation has done that uses a lookup, whether it reads or writes, if it succeeds: a
step without the lookup has left the memory alone, and a formatter that was found is one that
the lookup gave out.

Of a lookup nothing is known but what it gives out: formatters, and the types that its registries
of names know.  A *described* lookup gives out only formatters that follow from the descriptions
of their types, and its registries leave every type to such a formatter.  Any other lookup
supplies reads of its own: those of codecs, and the steps of scripts.
-/

namespace MsgPack

/-- Whether a formatter follows from the description of the type that it is for. -/
def Formatter.Described : Formatter → Prop
  | .codec _ | .custom _ => False
  | _ => True

/-! ## What scripts do -/

namespace Script

variable {ρ request answer α : Type}

/-- The steps of a script.  To fail is a step, too. -/
inductive Performs : Script ρ request answer α → EStateM Error ρ Datum → Prop where
  | fail (failure : Error) : Performs (.fail failure) (throw failure)
  | now (action : EStateM Error ρ Datum) (next : Datum → Script ρ request answer α) :
      Performs (.step action next) action
  | afterStep {action later : EStateM Error ρ Datum} {next : Datum → Script ρ request answer α}
      (result : Datum) (rest : Performs (next result) later) : Performs (.step action next) later
  | afterAnswer {wanted : request} {later : EStateM Error ρ Datum}
      {next : answer → Script ρ request answer α} (given : answer)
      (rest : Performs (next given) later) : Performs (.ask wanted next) later

/-- The requests of a script. -/
inductive Asks : Script ρ request answer α → request → Prop where
  | now (wanted : request) (next : answer → Script ρ request answer α) :
      Asks (.ask wanted next) wanted
  | afterStep {action : EStateM Error ρ Datum} {later : request}
      {next : Datum → Script ρ request answer α} (result : Datum)
      (rest : Asks (next result) later) : Asks (.step action next) later
  | afterAnswer {wanted later : request} {next : answer → Script ρ request answer α}
      (given : answer) (rest : Asks (next given) later) : Asks (.ask wanted next) later

end Script

/-- To leave everything to the formatter of a type takes no step. -/
theorem TypelessDelegates.not_performs_of {type : Schema} {action : Read Datum} :
    ¬(TypelessDelegates.of type).read.Performs action := by
  rintro (_ | _ | _ | ⟨_, ⟨⟩⟩)

/-! ## What lookups give out -/

namespace Lookup

variable {σ : Type} {lookup : Lookup σ}

/-- Whether a lookup gives out a formatter for some type. -/
def GivesOut (lookup : Lookup σ) (formatter : Formatter) : Prop :=
  ∃ type memory, (lookup.find type memory).1 = some formatter

/-- Whether a lookup has a registry of names. -/
def Keeps (lookup : Lookup σ) (known : TypeRegistry) : Prop :=
  ∃ registry memory, lookup.names registry memory = known

/-- The reads that a lookup supplies. -/
inductive Supplies (lookup : Lookup σ) : Read Datum → Prop where
  | codec {codec : Codec} (given : lookup.GivesOut (.codec codec)) : Supplies lookup codec.read
  | custom {custom : CustomFormatter} {action : Read Datum}
      (given : lookup.GivesOut (.custom custom)) (performs : custom.read.Performs action) :
      Supplies lookup action
  | handle {known : TypeRegistry} {handle : TypeHandle} {action : Read Datum}
      (keeps : lookup.Keeps known) (has : known.Has handle)
      (performs : handle.delegates.read.Performs action) : Supplies lookup action

/-- Whether a custom formatter of a lookup asks for values of a type. -/
def Requests (lookup : Lookup σ) (type : Schema) : Prop :=
  ∃ custom, lookup.GivesOut (.custom custom) ∧ custom.read.Asks type

/-- Whether all formatters of a lookup follow from descriptions, and its registries of names leave
every type to a formatter. -/
structure Described (lookup : Lookup σ) : Prop where
  formatters : ∀ type memory formatter, (lookup.find type memory).1 = some formatter →
    formatter.Described
  names : ∀ registry memory, (lookup.names registry memory).Plain

namespace Described

theorem of_givesOut (described : lookup.Described) {formatter : Formatter}
    (given : lookup.GivesOut formatter) : formatter.Described := by
  rcases given with ⟨type, memory, found⟩
  exact described.formatters type memory formatter found

theorem of_keeps (described : lookup.Described) {known : TypeRegistry}
    (keeps : lookup.Keeps known) : known.Plain := by
  rcases keeps with ⟨registry, memory, rfl⟩
  exact described.names registry memory

theorem not_supplies (described : lookup.Described) {read : Read Datum} :
    ¬lookup.Supplies read := by
  intro supplies
  cases supplies with
  | codec given => exact described.of_givesOut given
  | custom given _ => exact described.of_givesOut given
  | handle keeps has performs =>
      rcases described.of_keeps keeps _ has with ⟨type, left⟩
      rw [left] at performs
      exact TypelessDelegates.not_performs_of performs

theorem not_requests (described : lookup.Described) {type : Schema} : ¬lookup.Requests type := by
  rintro ⟨custom, given, _⟩
  exact described.of_givesOut given

end Described

/-- Formatters that types bring themselves follow from their descriptions. -/
theorem described_standard (catalog : Catalog) : (standard catalog).Described where
  formatters type memory formatter found := by
    rw [catalog.eq_builtin_of_formatter? found]
    trivial
  names _ _ := catalog.plain

end Lookup

namespace Session

variable {ρ σ α β : Type}

/-- A step without the lookup leaves its memory alone. -/
theorem lift_eq_ok {step : EStateM Error ρ α} {state after : ρ} {memory kept : σ} {result : α} :
    (lift step : EStateM Error (Session ρ σ) α) ⟨state, memory⟩ = .ok result ⟨after, kept⟩ ↔
      step state = .ok result after ∧ memory = kept := by
  simp only [lift]
  cases step state <;> simp [and_assoc]

theorem lift_pure (result : α) :
    (lift (pure result) : EStateM Error (Session ρ σ) α) = pure result :=
  rfl

theorem lift_bind (first : EStateM Error ρ α) (next : α → EStateM Error ρ β) :
    (lift (first >>= next) : EStateM Error (Session ρ σ) β) =
      lift first >>= fun found => lift (next found) := by
  funext ⟨state, memory⟩
  simp only [lift, bind, EStateM.bind]
  cases first state <;> rfl

theorem lift_ite (condition : Prop) [Decidable condition] (first second : EStateM Error ρ α) :
    (lift (if condition then first else second) : EStateM Error (Session ρ σ) α) =
      if condition then lift first else lift second := by
  split <;> rfl

theorem lift_times (count : Nat) (item : EStateM Error ρ α) :
    (lift (Loop.times count item) : EStateM Error (Session ρ σ) (List α)) =
      Loop.times count (lift item) := by
  induction count with
  | zero => rfl
  | succ count ih => simp only [Loop.times_succ, lift_bind, ih, lift_pure]

theorem lift_discard (item : EStateM Error ρ Unit) (count : Nat) :
    (lift (Loop.discard item count) : EStateM Error (Session ρ σ) Unit) =
      Loop.discard (lift item) count := by
  induction count with
  | zero => rfl
  | succ count ih => simp only [Loop.discard, lift_bind, ih]

theorem lift_nested (inner : Read α) :
    (lift (Read.nested inner) : Decode σ α) = Decode.nested (lift inner) := by
  funext ⟨reader, memory⟩
  simp only [lift, Read.nested, Decode.nested]
  cases Read.enterNested reader with
  | error failure after => rfl
  | ok opened entered =>
      simp only
      cases inner entered <;> rfl

/-- A formatter that is found is one that the lookup gives out, and finding it neither reads
nor writes. -/
theorem find_eq_ok {lookup : Lookup σ} {type : Schema} {state : ρ} {memory : σ}
    {formatter : Formatter} {after : Session ρ σ} :
    find lookup type ⟨state, memory⟩ = .ok formatter after ↔
      (lookup.find type memory).1 = some formatter ∧
        after = ⟨state, (lookup.find type memory).2⟩ := by
  simp only [find]
  rcases lookup.find type memory with ⟨found, kept⟩
  cases found <;> simp [eq_comm]

theorem givesOut_of_find {lookup : Lookup σ} {type : Schema} {session after : Session ρ σ}
    {formatter : Formatter} (ok : find lookup type session = .ok formatter after) :
    lookup.GivesOut formatter :=
  ⟨type, session.memory, (find_eq_ok.1 ok).1⟩

theorem keeps_of_names {lookup : Lookup σ} {registry : Option Nat} {session after : Session ρ σ}
    {known : TypeRegistry} (ok : names lookup registry session = .ok known after) :
    lookup.Keeps known := by
  cases ok
  exact ⟨registry, session.memory, rfl⟩

theorem described_of_find {lookup : Lookup σ} (described : lookup.Described) {type : Schema}
    {session after : Session ρ σ} {formatter : Formatter}
    (ok : find lookup type session = .ok formatter after) : formatter.Described :=
  described.of_givesOut (givesOut_of_find ok)

end Session

end MsgPack
