import MsgPack.Proofs.Formatter.Appends
import MsgPack.Proofs.Formatter.Canonical
import MsgPack.Proofs.Formatter.Reads
import MsgPack.Proofs.Formatter.TakesAt
import MsgPack.Proofs.Value.Content
import MsgPack.Proofs.Value.RoundTrip

/-!
# Typeless values there and back

A typeless value travels as one extension, whose payload is the name of its type and then what
the delegates of the type make of the value.  It comes back if they bring it back, wherever the
name stands for the type, and it needs one level more.  A value of any shape needs no name and
travels as it is.
-/

namespace MsgPack

/-- The formatter of typeless values that works with a registry of names. -/
def Formatter.ofNames : Option Nat → Formatter
  | none => .builtin
  | some number => .typeless number

/-- What a typeless value travels as, whose content is written as some bytes. -/
def TypeHandle.envelope (handle : TypeHandle) (bytes : Bytes) : Value :=
  .extension ExtensionCode.typeless ((Value.string handle.name).encoding ++ bytes)

/-- The name fits if the envelope does. -/
theorem TypeHandle.fits_name {handle : TypeHandle} {bytes : Bytes}
    (fits : (handle.envelope bytes).Fits) : (Value.string handle.name).Fits := by
  have length : ((Value.string handle.name).encoding ++ bytes).length < 0x100000000 := fits
  rw [Value.encoding, List.length_append, List.length_append] at length
  exact Nat.lt_of_le_of_lt (by omega) length

variable {σ : Type} {lookup : Lookup σ} {catalog : Catalog} {registry : Option Nat}
variable {good : σ → Prop} {handle : TypeHandle} {content : Datum} {bytes : Bytes}

/-! ## Writing -/

namespace Encode

open Session

/-- Writes what delegates make of a value of a type, as whatever is written with the lookup. -/
def byDelegates (lookup : Lookup σ) (catalog : Catalog) (delegates : TypelessDelegates)
    (type : Schema) (content : Datum) : Encode σ Unit :=
  delegated delegates type content (fun wanted => value lookup catalog wanted content)
    (inside lookup catalog content)

/-- Delegates that leave everything to the formatter of a type write what it writes. -/
theorem byDelegates_of (type : Schema) (content : Datum) :
    byDelegates lookup catalog (.of type) type content = value lookup catalog type content := by
  have asked : (TypelessDelegates.of type).write type content = .ask (none, type) .done :=
    if_pos rfl
  rw [byDelegates, delegated, asked, follow]
  exact bind_pure _

/-- The content of a typeless value is written as its delegates say. -/
theorem datum_typeless (held : Schema) (content : Datum) :
    datum lookup catalog (.typeless held content) (.ofNames registry) .typeless =
      typeless lookup registry held content (fun wanted => value lookup catalog wanted content)
        (inside lookup catalog content) := by
  cases registry with
  | none => rfl
  | some number =>
      rw [datum, Formatter.ofNames, formatted, settle_typeless, pure_bind]
      rfl

/-- A typeless value of a type other than that of values of any shape carries a name. -/
theorem typeless_of_ne {held : Schema} (other : held ≠ .scalar .value) (content : Datum)
    (whole : Part σ) (parts : List (Part σ)) :
    typeless lookup registry held content whole parts = (do
      match (← names lookup registry).byType? held with
      | none => throw (.unregisteredType held.typeName)
      | some handle => do
          note lookup registry held
          let payload ← intoPayload do
            lift (Write.str handle.name)
            delegated handle.delegates held content whole parts
          lift (Write.extension ExtensionCode.typeless payload)) := by
  unfold typeless
  split
  · exact absurd rfl other
  · rfl

/-- Whether a computation leaves the writer as it was if it fails. -/
def Spares {α : Type} (write : Encode σ α) : Prop :=
  ∀ writer memory failure after, write ⟨writer, memory⟩ = .error failure after →
    after.state = writer

namespace Spares

/-- A computation that goes on after one that does not write. -/
theorem after {α β : Type} {first : Encode σ α} {next : α → Encode σ β}
    (still : ∀ writer memory, (∃ result kept, first ⟨writer, memory⟩ = .ok result ⟨writer, kept⟩) ∨
      ∃ failure kept, first ⟨writer, memory⟩ = .error failure ⟨writer, kept⟩)
    (tail : ∀ found, Spares (next found)) : Spares (first >>= next) := by
  intro writer memory failure after error
  rcases still writer memory with ⟨result, kept, ok⟩ | ⟨failure', kept, fails⟩
  · rw [bind_of_ok ok] at error
    exact tail result writer kept failure after error
  · rw [bind_of_error fails] at error
    cases error
    rfl

protected theorem throw {α : Type} (failure : Error) :
    Spares (throw failure : Encode σ α) := by
  intro writer memory failure' after error
  cases error
  rfl

/-- The header of an extension is refused before any of it is written. -/
theorem extension (typeCode : Int8) (payload : Bytes) :
    Spares (lift (Write.extension typeCode payload) : Encode σ Unit) := by
  intro writer memory failure after error
  by_cases fits : payload.length < 0x100000000
  · rw [Write.extension, Write.extensionHeader, Write.header_of_fits fits, Write.emit_then] at error
    cases error
  · rw [Write.extension, Write.extensionHeader, Write.header, if_neg fits] at error
    cases error
    rfl

end Spares

/-- A payload is written to a writer of its own. -/
theorem intoPayload_still (write : Encode σ Unit) (writer : Writer) (memory : σ) :
    (∃ payload kept, intoPayload write ⟨writer, memory⟩ = .ok payload ⟨writer, kept⟩) ∨
      ∃ failure kept, intoPayload write ⟨writer, memory⟩ = .error failure ⟨writer, kept⟩ := by
  rw [intoPayload]
  cases write ⟨Writer.empty, memory⟩ with
  | ok found after => exact .inl ⟨_, _, rfl⟩
  | error failure after => exact .inr ⟨_, _, rfl⟩

/-- Writing a typeless value that carries a name leaves the writer as it was if it fails. -/
theorem spares_typeless {held : Schema} (other : held ≠ .scalar .value) (content : Datum)
    (whole : Part σ) (parts : List (Part σ)) :
    Spares (typeless lookup registry held content whole parts) := by
  rw [typeless_of_ne other]
  refine Spares.after (fun writer memory => .inl ⟨_, memory, rfl⟩) fun known => ?_
  split
  · exact .throw _
  · refine Spares.after (fun writer memory => .inl ⟨(), _, rfl⟩) fun _ => ?_
    exact Spares.after (intoPayload_still _) fun payload => .extension _ payload

/-! ### What is appended -/

namespace Appends

variable {fits more : Prop} {others : Bytes}

/-- A type that the registry knows in all good memories. -/
theorem knownThen {type : Schema} {next : TypeHandle → Encode σ Unit}
    (known : ∀ memory, good memory →
      (lookup.names registry memory).byType? type = some handle)
    (appends : Appends good (next handle) bytes fits) :
    Appends good (do
      match (← names lookup registry).byType? type with
      | none => throw (.unregisteredType type.typeName)
      | some handle => next handle) bytes fits := by
  intro writer memory isGood
  rw [bind_of_ok (show names lookup registry ⟨writer, memory⟩ = .ok _ ⟨writer, memory⟩ from rfl),
    known memory isGood]
  exact appends writer memory isGood

theorem noteThen {type : Schema} {next : Unit → Encode σ Unit}
    (keeps : ∀ memory, good memory → good (lookup.noted registry type memory))
    (appends : Appends good (next ()) bytes fits) :
    Appends good (note lookup registry type >>= next) bytes fits :=
  fun writer memory isGood => appends writer _ (keeps memory isGood)

/-- A payload, and what is appended of it. -/
theorem intoPayloadThen {write : Encode σ Unit} {next : Bytes → Encode σ Unit}
    (payload : Appends good write bytes fits) (appends : Appends good (next bytes) others more) :
    Appends good (intoPayload write >>= next) others (fits ∧ more) := by
  intro writer memory isGood
  have written := payload Writer.empty memory isGood
  cases first : write ⟨Writer.empty, memory⟩ with
  | error failure middle =>
      rw [first] at written
      have fails : intoPayload write ⟨writer, memory⟩ = .error failure ⟨writer, middle.memory⟩ := by
        simp only [intoPayload, first]
      rw [bind_of_error fails]
      exact fun both => written both.1
  | ok found middle =>
      rw [first] at written
      obtain ⟨fit, appended, isGood⟩ := written
      have whole : intoPayload write ⟨writer, memory⟩ = .ok bytes ⟨writer, middle.memory⟩ := by
        simp only [intoPayload, first, appended]
        rfl
      have rest := appends writer middle.memory isGood
      rw [bind_of_ok whole]
      cases second : next bytes ⟨writer, middle.memory⟩ with
      | error failure after =>
          rw [second] at rest
          exact fun both => rest both.2
      | ok found' after =>
          rw [second] at rest
          exact ⟨⟨fit, rest.1⟩, rest.2⟩

end Appends

/-- A typeless value is written in its envelope, if its delegates can write it and the lengths
fit. -/
theorem appends_typeless {held : Schema} (other : held ≠ .scalar .value)
    (known : ∀ memory, good memory →
      (lookup.names registry memory).byType? held = some handle)
    (keeps : ∀ memory, good memory → good (lookup.noted registry held memory)) {fits : Prop}
    (inside : Appends good (byDelegates lookup catalog handle.delegates held content) bytes fits) :
    Appends good (datum lookup catalog (.typeless held content) (.ofNames registry) .typeless)
      (handle.envelope bytes).encoding
      (((Value.string handle.name).Fits ∧ fits) ∧ (handle.envelope bytes).Fits) := by
  rw [datum_typeless, typeless_of_ne other]
  apply Appends.knownThen known
  apply Appends.noteThen keeps
  apply Appends.intoPayloadThen
  · exact (Appends.value (.string handle.name)).bind fun _ => inside
  · exact .value (handle.envelope bytes)

end Encode

/-! ## Reading -/

namespace Decode

open Session

/-- Reads a value as delegates say, with any values that they ask for. -/
def byDelegates (lookup : Lookup σ) (catalog : Catalog) (delegates : TypelessDelegates) :
    Decode σ (Schema × Datum) := fun session =>
  follow (found lookup (within lookup catalog session.state.budget)) delegates.read session

/-- Delegates that leave everything to the formatter of a type read what it reads. -/
theorem byDelegates_of (type : Schema) : byDelegates lookup catalog (.of type) =
    (do return (type, ← value lookup catalog type)) := by
  funext ⟨reader, memory⟩
  simp only [byDelegates, TypelessDelegates.of, follow, found, value, bind_assoc]
  simp only [bind, EStateM.bind]
  cases asked : find lookup type ⟨reader, memory⟩ with
  | error failure after => rfl
  | ok formatter after =>
      obtain ⟨_, rfl⟩ := find_eq_ok.1 asked
      rfl

/-- What reads the contents of a typeless value, where so many structures may be opened. -/
def below (lookup : Lookup σ) (catalog : Catalog) : Nat → Formatter → Schema → Decode σ Datum
  | 0 => fun _ _ => lift Read.tooDeep
  | budget + 1 => within lookup catalog budget

/-- A typeless value is read if it is with whatever budget there is. -/
theorem takes_typeless {levels : Nat} (each : ∀ budget, levels ≤ budget →
      TakesAt good budget (typeless lookup (below lookup catalog budget) registry) bytes content) :
    Takes good levels (datum lookup catalog (.ofNames registry) .typeless) bytes content := by
  intro reader rest memory isGood unread room
  have unfolded (inner : Formatter → Schema → Decode σ Datum) :
      formatted lookup inner (shaped lookup catalog inner .typeless) (.ofNames registry) =
        typeless lookup inner registry := by
    cases registry <;> rfl
  have same : datum lookup catalog (.ofNames registry) .typeless ⟨reader, memory⟩ =
      typeless lookup (below lookup catalog reader.budget) registry ⟨reader, memory⟩ := by
    rw [datum]
    cases reader.budget with
    | zero =>
        rw [within, unfolded]
        rfl
    | succ budget =>
        rw [within, unfolded]
        rfl
  rw [same]
  exact each reader.budget room reader rest memory isGood unread rfl

/-! ### Known bytes -/

section Known

variable {inner : Formatter → Schema → Decode σ Datum} {held : Schema} {budget levels : Nat}

/-- The name of a type that stands for it, and a value as its delegates read it. -/
theorem takesAt_named (fits : (Value.string handle.name).Fits)
    (known : ∀ memory, good memory →
      (lookup.names registry memory).byName? handle.name = some handle)
    (keeps : ∀ memory, good memory → good (lookup.noted registry handle.type memory))
    (inside : TakesAt good budget (follow (found lookup inner) handle.delegates.read) bytes
      (held, content)) :
    TakesAt good budget (named lookup inner registry)
      ((Value.string handle.name).encoding ++ bytes) (handle, held, content) := by
  apply (TakesAt.lift (Read.takes_string fits)).bind
  apply TakesAt.nameThen known
  exact (TakesAt.note keeps).bind (inside.mapped _)

/-- A read inside the payload of an extension that takes the whole payload. -/
theorem takesAt_sealed {α β : Type} {read : Decode σ α} {payload : Bytes} {found : α}
    (inside : TakesAt good budget read payload found) (typeCode : Int8)
    (fits : payload.length < 0x100000000) (accept : α → β) (refuse : α → Nat → Nat → Error) :
    TakesAt good budget (do
      let header ← lift Read.extensionHeader
      let start ← lift Read.position
      let found ← read
      let taken := (← lift Read.position) - start
      if taken = header.length then return accept found
      else throw (refuse found header.length taken))
      (Value.extension typeCode payload).encoding (accept found) := by
  intro reader rest memory isGood unread room
  rw [Value.encoding, List.append_assoc] at unread
  obtain ⟨opened, headed, passed⟩ :=
    Read.takes_extensionHeader typeCode fits reader _ unread (Nat.zero_le _)
  rw [← passed.budget] at room
  obtain ⟨after, kept, ok, through, still⟩ :=
    inside opened rest memory isGood (passed.unread_eq unread) room
  have taken : after.position - opened.position = payload.length := by
    rw [through.position, Nat.add_sub_cancel_left]
  refine ⟨after, kept, bind_eq_ok.2 ⟨_, _, lift_eq_ok.2 ⟨headed, rfl⟩, bind_eq_ok.2 ⟨_, _, rfl,
    bind_eq_ok.2 ⟨_, _, ok, bind_eq_ok.2 ⟨_, _, rfl, ?_⟩⟩⟩⟩, passed.trans through, still⟩
  rw [if_pos taken]
  rfl

/-- What the next value says is enough to see whether it carries the name of its type. -/
theorem takesAt_carriesNameThen {value : Value} (fits : value.Fits) {α : Type}
    {next : Bool → Decode σ α} {result : α}
    (takes : TakesAt good budget (next value.content.carriesName) value.encoding result) :
    TakesAt good budget (lift carriesName >>= next) value.encoding result := by
  intro reader rest memory isGood unread room
  obtain ⟨found, looked, rfl⟩ := looks_carriesName.whole (Value.spells_encoding fits) unread
  obtain ⟨after, kept, ok, passed, still⟩ := takes reader rest memory isGood unread room
  exact ⟨after, kept, bind_eq_ok.2 ⟨_, _, lift_eq_ok.2 ⟨looked, rfl⟩, ok⟩, passed, still⟩

/-- A typeless value in its envelope is one structure. -/
theorem takes_envelope (fits : (handle.envelope bytes).Fits)
    (known : ∀ memory, good memory →
      (lookup.names registry memory).byName? handle.name = some handle)
    (keeps : ∀ memory, good memory → good (lookup.noted registry handle.type memory))
    (inside : Takes good levels (byDelegates lookup catalog handle.delegates) bytes
      (held, content)) :
    Takes good (levels + 1) (datum lookup catalog (.ofNames registry) .typeless)
      (handle.envelope bytes).encoding (.typeless held content) := by
  apply takes_typeless
  intro budget room
  cases budget with
  | zero => exact absurd room (Nat.not_succ_le_zero levels)
  | succ budget =>
      have content : TakesAt good budget
          (follow (found lookup (within lookup catalog budget)) handle.delegates.read) bytes
          (held, content) := by
        rintro reader rest memory isGood unread rfl
        exact inside reader rest memory isGood unread (Nat.le_of_succ_le_succ room)
      apply takesAt_carriesNameThen fits
      exact takesAt_sealed (takesAt_named (TypeHandle.fits_name fits) known keeps content).nested
        ExtensionCode.typeless fits (fun found => Datum.typeless found.2.1 found.2.2)
        fun found declared taken => .invalidValue (.typelessLength found.1.name declared taken)

/-- A value of any shape that no envelope could be is read as its normal form. -/
theorem takes_unnamed {value : Value} (fits : value.Fits)
    (plain : ∀ payload, value ≠ .extension ExtensionCode.typeless payload) :
    Takes good value.nesting (datum lookup catalog (.ofNames registry) .typeless) value.encoding
      (.typeless (.scalar .value) (.atom (.value value.normal))) := by
  have unnamed : value.content.carriesName = false := by
    cases value with
    | extension typeCode payload =>
        have other : typeCode ≠ ExtensionCode.typeless := by
          rintro rfl
          exact plain payload rfl
        exact decide_eq_false other
    | _ => rfl
  apply takes_typeless
  intro budget room
  apply takesAt_carriesNameThen fits
  rw [unnamed]
  exact ((Takes.lift (Value.takes_read fits)).at room).mapped _

end Known

end Decode

end MsgPack
