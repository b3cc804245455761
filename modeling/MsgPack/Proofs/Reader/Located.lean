import MsgPack.Proofs.Reader.Bytes

/-!
# Where reads fail

A failure may speak of the place where the reader stands: it names the code that was refused,
or says how many bytes were left.  Wherever a read fails, however deep inside its value, that
is the place where it leaves the reader: the refused code is still unread, and so are just the
bytes that were found too few.

The elementary reads have this property, and compositions keep it.  Reading the bytes of a
value again, after it was skipped, needs one thing more: no read loses count of its bytes.
-/

namespace MsgPack

/-- What a failure says of the place of a reader is so.  A code that was refused is the next
one, and is reported under the name of its format; bytes that were missed are not there. -/
def Error.Located (failure : Error) (reader : Reader) : Prop :=
  match failure with
  | .invalidCode code expected =>
      (∃ following, reader.cursor.unread = code :: following) ∧
        ∃ format, Read.peekFormat reader = .ok format reader ∧
          failure.message = "Invalid code 0x" ++ Hex.paddedCapital 2 code.toNat ++ " ("
            ++ format.name ++ ") while reading " ++ expected.name
  | .insufficientData needed remaining => remaining = reader.remaining ∧ remaining < needed
  | _ => True

/-- A code is refused where it is next. -/
theorem Error.located_invalidCode {reader : Reader} {code : UInt8} {following : Bytes}
    (unread : reader.cursor.unread = code :: following) (expected : Expected) :
    (Error.invalidCode code expected).Located reader :=
  ⟨⟨following, unread⟩, _, bind_of_ok (Read.peekCode_eq unread) _, rfl⟩

theorem Error.Placeless.located {failure : Error} (placeless : failure.Placeless)
    (reader : Reader) : failure.Located reader := by
  cases failure with
  | invalidCode code expected => exact placeless.elim
  | insufficientData needed remaining => exact placeless.elim
  | _ => trivial

/-- How deep a reader is in its source is not part of the place that failures speak of. -/
theorem Error.Located.congr {failure : Error} {reader other : Reader}
    (located : failure.Located reader) (same : other.cursor = reader.cursor) :
    failure.Located other := by
  cases failure with
  | invalidCode code expected =>
      obtain ⟨⟨following, unread⟩, _⟩ := located
      rw [← same] at unread
      exact located_invalidCode unread expected
  | insufficientData needed remaining =>
      rw [Located, Reader.remaining, same]
      exact located
  | _ => trivial

namespace Read

variable {α β : Type}

/-- A read that loses no bytes where it succeeds, and fails where it says. -/
structure Orderly (read : Read α) : Prop where
  kept : ∀ {reader after : Reader} {result : α}, read reader = .ok result after →
    after.position + after.remaining = reader.position + reader.remaining
  located : ∀ {reader after : Reader} {failure : Error}, read reader = .error failure after →
    failure.Located after

namespace Orderly

/-! ## Elementary reads -/

theorem pure (result : α) : Orderly (pure result : Read α) where
  kept ok := by
    cases ok
    rfl
  located error := by cases error

theorem throw {failure : Error} (placeless : failure.Placeless) :
    Orderly (throw failure : Read α) where
  kept ok := by cases ok
  located error := by
    cases error
    exact placeless.located _

/-- A move over bytes that answers with something found before it. -/
theorem move (count : Nat) (look : Cursor → α) :
    Orderly (take fun cursor => (cursor.advance count).map fun next => (look cursor, next)) where
  kept {reader after result} ok := by
    simp only [take] at ok
    cases moved : reader.cursor.advance count with
    | ok next =>
        obtain ⟨enough, _, consumed, remaining, _⟩ := Cursor.of_advance_eq_ok moved
        rw [moved] at ok
        cases ok
        simp only [Reader.position, Reader.remaining, consumed, remaining]
        omega
    | error failure =>
        rw [moved] at ok
        cases ok
  located {reader after failure} error := by
    simp only [take] at error
    rcases Nat.lt_or_ge reader.cursor.remaining count with short | enough
    · rw [Cursor.advance_of_lt short] at error
      cases error
      exact ⟨rfl, short⟩
    · obtain ⟨next, moved, _⟩ := Cursor.exists_advance enough
      rw [moved] at error
      cases error

theorem advance (count : Nat) : Orderly (advance count) :=
  move count fun _ => ()

theorem fixed (count : Nat) : Orderly (fixed count) := by
  have same : Read.fixed count = take fun cursor =>
      (cursor.advance count).map fun next => (cursor.unread.take count, next) := by
    funext reader
    simp only [Read.fixed, take, Cursor.readArray_eq, Cursor.peekInto_eq]
    by_cases enough : count ≤ reader.cursor.remaining
    · rw [if_pos enough]
      cases reader.cursor.advance count <;> rfl
    · rw [if_neg enough, Cursor.advance_of_lt (Nat.lt_of_not_le enough)]
      rfl
  rw [same]
  exact move count _

theorem skipByte : Orderly skipByte where
  kept {reader after result} ok := by
    cases ok
    simp only [Reader.position, Reader.remaining]
    by_cases ended : reader.cursor.unread = []
    · rw [Cursor.skipByte_of_ended ended, Cursor.consumed_noteOverrun,
        Cursor.remaining_noteOverrun]
    · obtain ⟨enough, _, consumed, remaining, _⟩ :=
        Cursor.of_advance_eq_ok (Cursor.advance_one ended)
      rw [consumed, remaining]
      omega
  located error := by cases error

theorem ensure (needed : Nat) : Orderly (ensure needed) where
  kept {reader after result} ok := by
    simp only [Read.ensure, peek, Cursor.ensure] at ok
    split at ok <;> cases ok
    rfl
  located {reader after failure} error := by
    simp only [Read.ensure, peek, Cursor.ensure] at error
    by_cases enough : needed ≤ reader.cursor.remaining
    · rw [if_pos enough] at error
      cases error
    · rw [if_neg enough] at error
      cases error
      exact ⟨rfl, Nat.lt_of_not_le enough⟩

/-! ## Compositions -/

theorem bind {first : Read α} {next : α → Read β} (head : Orderly first)
    (tail : ∀ found, Orderly (next found)) : Orderly (first >>= next) where
  kept ok := by
    rcases bind_eq_ok.1 ok with ⟨found, middle, start, rest⟩
    exact ((tail found).kept rest).trans (head.kept start)
  located {reader after failure} error := by
    cases start : first reader with
    | ok found middle =>
        rw [bind_of_ok start] at error
        exact (tail found).located error
    | error missing middle =>
        rw [bind_of_error start] at error
        cases error
        exact head.located start

/-- A code may be refused after the look at it, where it is still next. -/
theorem peekThen {next : UInt8 → Read α}
    (taken : ∀ code, ¬ Refuses code (next code) → Orderly (next code)) :
    Orderly (peekCode >>= next) where
  kept {reader after result} ok := by
    rcases bind_eq_ok.1 ok with ⟨code, middle, look, rest⟩
    obtain ⟨_, _, rfl⟩ := unread_of_peekCode look
    refine (taken code ?_).kept rest
    rintro ⟨expected, refuses⟩
    rw [refuses] at rest
    cases rest
  located {reader after failure} error := by
    cases unread : reader.cursor.unread with
    | nil =>
        have none : reader.remaining = 0 := by
          rw [Reader.remaining, ← Cursor.length_unread, unread]
          rfl
        have missing : peekCode reader = .error (.insufficientData 1 0) reader := by
          simp only [peekCode, peek, Cursor.peekByte_eq, unread]
        rw [bind_of_error missing] at error
        cases error
        exact ⟨none.symm, Nat.one_pos⟩
    | cons code following =>
        rw [bind_of_ok (peekCode_eq unread)] at error
        by_cases refused : Refuses code (next code)
        · obtain ⟨expected, refuses⟩ := refused
          rw [refuses] at error
          cases error
          exact Error.located_invalidCode unread expected
        · exact (taken code refused).located error

theorem nested {inner : Read α} (inside : Orderly inner) : Orderly (nested inner) where
  kept {reader after result} ok := by
    simp only [Read.nested, enterNested] at ok
    by_cases full : reader.maxDepth ≤ reader.depth
    · rw [if_pos full] at ok
      cases ok
    · rw [if_neg full] at ok
      dsimp only at ok
      split at ok <;> cases ok
      rename_i done
      have counted := inside.kept done
      exact counted
  located {reader after failure} error := by
    simp only [Read.nested, enterNested] at error
    by_cases full : reader.maxDepth ≤ reader.depth
    · rw [if_pos full] at error
      cases error
      trivial
    · rw [if_neg full] at error
      dsimp only at error
      split at error <;> cases error
      rename_i fails
      exact (inside.located fails).congr rfl

/-- What was looked at stays unread, also where the look fails. -/
theorem lookAhead {read : Read α} (ahead : Orderly read) (still : FailsInPlace read) :
    Orderly (lookAhead read) where
  kept {reader after result} ok := by
    simp only [Read.lookAhead] at ok
    split at ok <;> cases ok
    rfl
  located {reader after failure} error := by
    simp only [Read.lookAhead] at error
    split at error
    · cases error
    · rename_i missing middle fails
      cases error
      have located := ahead.located fails
      rwa [still fails] at located

/-- The bytes that were passed over are there to be read. -/
theorem span {skipping : Read Unit} (inside : Orderly skipping) :
    Orderly (return (← span skipping).content) := by
  have slice {reader after : Reader} (ok : skipping reader = .ok () after) :
      ∃ bytes next, reader.cursor.readSlice (after.cursor.consumed - reader.cursor.consumed) =
        .ok (bytes, next) := by
    have counted := inside.kept ok
    simp only [Reader.position, Reader.remaining] at counted
    have enough : after.cursor.consumed - reader.cursor.consumed ≤ reader.cursor.remaining := by
      omega
    obtain ⟨next, _, read⟩ := reader.cursor.exists_readSlice enough
    exact ⟨_, next, read⟩
  apply Orderly.bind _ fun _ => .pure _
  constructor
  · intro reader after result ok
    simp only [Read.span] at ok
    split at ok
    · cases ok
    · rename_i middle skipped
      obtain ⟨bytes, next, taken⟩ := slice skipped
      rw [taken] at ok
      cases ok
      exact inside.kept skipped
  · intro reader after failure error
    simp only [Read.span] at error
    split at error
    · rename_i fails
      cases error
      exact inside.located fails
    · rename_i middle skipped
      obtain ⟨bytes, next, taken⟩ := slice skipped
      rw [taken] at error
      cases error

end Orderly

/-- Composed reads lose no bytes, and fail where they say. -/
theorem Composed.orderly {deep ready : Bool} {read : Read α}
    (composed : Composed deep ready read) :
    Orderly read := by
  induction composed with
  | pure result => exact .pure result
  | throw placeless => exact .throw placeless
  | bind _ _ head tail => exact head.bind tail
  | peekThen _ taken => exact .peekThen taken
  | skipByte => exact .skipByte
  | advance count => exact .advance count
  | fixed count => exact .fixed count
  | ensure needed => exact .ensure needed
  | position =>
      constructor
      · rintro reader after result ⟨⟩
        rfl
      · rintro reader after failure ⟨⟩
  | tooDeep =>
      constructor
      · rintro reader after result ⟨⟩
      · rintro reader after failure ⟨⟩
        trivial
  | nested _ inside => exact inside.nested
  | lookAhead _ still ahead => exact ahead.lookAhead still
  | withBudget _ within =>
      constructor
      · intro reader after result ok
        exact (within reader.budget).kept ok
      · intro reader after failure error
        exact (within reader.budget).located error
  | span _ inside => exact inside.span

end Read

end MsgPack
