import MsgPack.Cursor.Run
import MsgPack.Cursor.Segmented

/-!
# Reading positions

A cursor stands between two bytes of a source and only moves forward.  The source is one run
of bytes or a list of segments, and each has cursors of its own.  What they have in common is
the *span*, the unread bytes that lie in one piece with the next one.

A read looks at the span first.  Only bytes that do not lie within the span are gathered
across segments, and only such bytes are copied.  No operation moves a cursor when it fails.

A move within the span looks for no end of it.  Whoever asks for such a move must know that
the span holds the bytes; a cursor notes when it was asked without that.
-/

namespace MsgPack

/-- Bytes taken from a source, and whether they are the source's own bytes, lying within one
segment, rather than a copy. -/
structure Fetched (α : Type) where
  content : α
  borrowed : Bool
  deriving DecidableEq

/-- A position in a source of bytes. -/
inductive Cursor where
  /-- A position in one run of bytes. -/
  | run (cursor : RunCursor)
  /-- A position in a list of segments. -/
  | segmented (cursor : SegmentedCursor)

namespace Cursor

/-! ## What each kind of cursor does by itself -/

/-- Whether the source was given as segments. -/
def isSegmented : Cursor → Bool
  | run _ => false
  | segmented _ => true

/-- How many bytes have been read. -/
def consumed : Cursor → Nat
  | run cursor => cursor.position
  | segmented cursor => cursor.consumed

/-- How many bytes are unread.  They are disjoint parts of one memory, so the number fits in
64 bits. -/
def remaining : Cursor → Nat
  | run cursor => cursor.remaining
  | segmented cursor => cursor.remaining

/-- The unread bytes that lie in one piece. -/
def span : Cursor → Bytes
  | run cursor => cursor.ahead
  | segmented cursor => cursor.toPlace.span

/-- Whether a move within the span was asked for that the span did not hold. -/
def overran : Cursor → Bool
  | run cursor => cursor.overran
  | segmented cursor => cursor.overran

/-- The cursor that has noted such a move. -/
def noteOverrun : Cursor → Cursor
  | run cursor => run { cursor with overran := true }
  | segmented cursor => segmented { cursor with overran := true }

/-- Whether the span holds the next `count` bytes. -/
def Holds (cursor : Cursor) (count : Nat) : Prop :=
  (cursor.span.take count).length = count

instance (cursor : Cursor) (count : Nat) : Decidable (cursor.Holds count) :=
  inferInstanceAs (Decidable (_ = _))

theorem holds_iff {cursor : Cursor} {count : Nat} :
    cursor.Holds count ↔ count ≤ cursor.span.length := by
  rw [Holds, List.length_take]
  omega

/-- Moves over `count` bytes of the span. -/
def advanceWithinSpan : (cursor : Cursor) → (count : Nat) → cursor.Holds count → Cursor
  | run cursor, count, held => run (cursor.advanceWithin count (holds_iff.1 held))
  | segmented cursor, count, held => segmented (cursor.advanceWithin count (holds_iff.1 held))

/-- Moves over `count` bytes. -/
def advance (cursor : Cursor) (count : Nat) : Except Error Cursor :=
  match cursor with
  | run cursor => (cursor.advance count).map run
  | segmented cursor => (cursor.advance count).map segmented

/-- The next `count` bytes, which stay unread. -/
def peekInto (cursor : Cursor) (count : Nat) : Except Error Bytes :=
  match cursor with
  | run cursor => cursor.peekInto count
  | segmented cursor => cursor.peekInto count

/-- The start of one run of bytes. -/
def ofBytes (bytes : Bytes) : Cursor :=
  run (.start bytes)

/-- The start of a list of segments. -/
def ofSegments (segments : List Bytes) : Cursor :=
  segmented (.start segments)

/-- The start of a source in parts: fewer than two parts are one run of bytes. -/
def ofParts : List Bytes → Cursor
  | [] => ofBytes []
  | [bytes] => ofBytes bytes
  | segments => ofSegments segments

/-! ## Reads

These are the same for both kinds of cursor. -/

/-- Fails unless that many bytes are unread. -/
def ensure (cursor : Cursor) (needed : Nat) : Except Error Unit :=
  if needed ≤ cursor.remaining then .ok ()
  else .error (.insufficientData needed cursor.remaining)

/-- The next byte, which stays unread. -/
def peekByte (cursor : Cursor) : Except Error UInt8 :=
  match cursor.span with
  | byte :: _ => .ok byte
  | [] => .error (.insufficientData 1 0)

/-- Moves over the next byte, which must be known to be there; otherwise the cursor stays and
notes the mistake. -/
def skipByte (cursor : Cursor) : Cursor :=
  if held : cursor.Holds 1 then cursor.advanceWithinSpan 1 held
  else cursor.noteOverrun

/-- Reads the next byte. -/
def readByte (cursor : Cursor) : Except Error (UInt8 × Cursor) :=
  cursor.peekByte.map fun byte => (byte, cursor.skipByte)

/-- Reads `count` bytes into an array of that size. -/
def readArray (cursor : Cursor) (count : Nat) : Except Error (Bytes × Cursor) :=
  if held : cursor.Holds count then
    .ok (cursor.span.take count, cursor.advanceWithinSpan count held)
  else do
    let bytes ← cursor.peekInto count
    let next ← cursor.advance count
    return (bytes, next)

/-- Reads `count` bytes, borrowing them when the span holds them all. -/
def readSlice (cursor : Cursor) (count : Nat) : Except Error (Fetched Bytes × Cursor) :=
  if held : cursor.Holds count then
    .ok (⟨cursor.span.take count, true⟩, cursor.advanceWithinSpan count held)
  else do
    cursor.ensure count
    let bytes ← cursor.peekInto count
    let next ← cursor.advance count
    return (⟨bytes, false⟩, next)

/-! ## The unread bytes

Both kinds of cursor are told by the unread bytes and by how many were read. -/

/-- The unread bytes. -/
def unread : Cursor → Bytes
  | run cursor => cursor.ahead
  | segmented cursor => cursor.ahead.flatten

theorem length_unread (cursor : Cursor) : cursor.unread.length = cursor.remaining := by
  cases cursor with
  | run cursor => exact cursor.length_ahead
  | segmented cursor => exact cursor.remaining_eq.symm

/-- The span is the beginning of the unread bytes. -/
theorem span_isPrefix_unread (cursor : Cursor) : cursor.span <+: cursor.unread := by
  cases cursor with
  | run cursor => exact List.prefix_rfl
  | segmented cursor => exact ⟨_, SegmentedCursor.span_append_flatten cursor.toPlace⟩

/-- A span cannot hold more than there is. -/
theorem le_remaining_of_holds {cursor : Cursor} {count : Nat} (held : cursor.Holds count) :
    count ≤ cursor.remaining := by
  rw [← length_unread]
  exact Nat.le_trans (holds_iff.1 held) cursor.span_isPrefix_unread.length_le

@[simp]
theorem unread_ofSegments (segments : List Bytes) :
    (ofSegments segments).unread = segments.flatten :=
  Place.flatten_settle 0 0 segments

@[simp]
theorem unread_ofBytes (bytes : Bytes) : (ofBytes bytes).unread = bytes :=
  rfl

@[simp]
theorem unread_ofParts (parts : List Bytes) : (ofParts parts).unread = parts.flatten := by
  unfold ofParts
  split <;> simp

/-- Bytes that the span holds are the next unread ones. -/
theorem take_span {cursor : Cursor} {count : Nat} (held : cursor.Holds count) :
    cursor.span.take count = cursor.unread.take count := by
  obtain ⟨later, unread⟩ := cursor.span_isPrefix_unread
  rw [← unread, List.take_append_of_le_length (holds_iff.1 held)]

/-! ## Moves -/

/-- A move that reaches no further than the source ends: the bytes are dropped from the unread
ones and counted as read. -/
theorem exists_advance {cursor : Cursor} {count : Nat} (enough : count ≤ cursor.remaining) :
    ∃ next, cursor.advance count = .ok next ∧ next.unread = cursor.unread.drop count
      ∧ next.consumed = cursor.consumed + count ∧ next.remaining = cursor.remaining - count
      ∧ next.isSegmented = cursor.isSegmented := by
  cases cursor with
  | run cursor =>
      have held : count ≤ cursor.ahead.length := cursor.length_ahead ▸ enough
      have moved : cursor.advance count = .ok (cursor.advanceWithin count held) := dif_pos enough
      refine ⟨run (cursor.advanceWithin count held), ?_, rfl, rfl,
        cursor.remaining_advanceWithin held, rfl⟩
      rw [advance, moved]
      rfl
  | segmented cursor =>
      obtain ⟨next, moved, unread, consumed, remaining⟩ := SegmentedCursor.exists_advance enough
      refine ⟨segmented next, ?_, unread, consumed, remaining, rfl⟩
      rw [advance, moved]
      rfl

/-- A move further than the source is refused. -/
theorem advance_of_lt {cursor : Cursor} {count : Nat} (short : cursor.remaining < count) :
    cursor.advance count = .error (.insufficientData count cursor.remaining) := by
  have beyond := Nat.not_le_of_lt short
  cases cursor with
  | run cursor =>
      have refused : cursor.advance count = .error (.insufficientData count cursor.remaining) :=
        dif_neg beyond
      rw [advance, refused]
      rfl
  | segmented cursor =>
      have refused : cursor.advance count = .error (.insufficientData count cursor.remaining) :=
        if_neg beyond
      rw [advance, refused]
      rfl

/-- A move drops bytes from the unread ones and counts them as read. -/
theorem of_advance_eq_ok {cursor next : Cursor} {count : Nat}
    (moved : cursor.advance count = .ok next) :
    count ≤ cursor.remaining ∧ next.unread = cursor.unread.drop count
      ∧ next.consumed = cursor.consumed + count ∧ next.remaining = cursor.remaining - count
      ∧ next.isSegmented = cursor.isSegmented := by
  rcases Nat.lt_or_ge cursor.remaining count with short | enough
  · rw [advance_of_lt short] at moved
    cases moved
  · obtain ⟨last, moved', effect⟩ := exists_advance enough
    cases moved.symm.trans moved'
    exact ⟨enough, effect⟩

/-- Moving within the span is moving. -/
theorem advance_eq_of_holds {cursor : Cursor} {count : Nat} (held : cursor.Holds count) :
    cursor.advance count = .ok (cursor.advanceWithinSpan count held) := by
  have enough := le_remaining_of_holds held
  cases cursor with
  | run cursor =>
      have moved : cursor.advance count =
          .ok (cursor.advanceWithin count (holds_iff.1 held)) := dif_pos enough
      rw [advance, moved]
      rfl
  | segmented cursor =>
      rw [advance, SegmentedCursor.advance_eq_of_held (holds_iff.1 held) enough]
      rfl

/-- What is peeked at is the beginning of the unread bytes. -/
theorem peekInto_eq (cursor : Cursor) (count : Nat) :
    cursor.peekInto count =
      if count ≤ cursor.remaining then .ok (cursor.unread.take count)
      else .error (.insufficientData count cursor.remaining) := by
  cases cursor with
  | run cursor => exact cursor.peekInto_eq count
  | segmented cursor => exact cursor.peekInto_eq count

/-- The span is empty only at the end of the source. -/
theorem span_eq_nil_iff {cursor : Cursor} : cursor.span = [] ↔ cursor.unread = [] := by
  cases cursor with
  | run cursor => exact Iff.rfl
  | segmented cursor => exact SegmentedCursor.span_eq_nil_iff

/-- The next byte is the first unread one. -/
theorem peekByte_eq (cursor : Cursor) :
    cursor.peekByte =
      match cursor.unread with
      | byte :: _ => .ok byte
      | [] => .error (.insufficientData 1 0) := by
  unfold peekByte
  cases first : cursor.span with
  | nil => rw [span_eq_nil_iff.1 first]
  | cons byte span =>
      obtain ⟨later, unread⟩ := cursor.span_isPrefix_unread
      rw [← unread, first]
      rfl

/-- The span holds the next byte, wherever there is one. -/
theorem holds_one_iff {cursor : Cursor} : cursor.Holds 1 ↔ cursor.unread ≠ [] := by
  rw [holds_iff, Nat.one_le_iff_ne_zero, ne_eq, List.length_eq_zero_iff, span_eq_nil_iff]

/-- Moving over a byte that is there is moving. -/
theorem advance_one {cursor : Cursor} (next : cursor.unread ≠ []) :
    cursor.advance 1 = .ok cursor.skipByte := by
  have held := holds_one_iff.2 next
  rw [advance_eq_of_holds held, skipByte, dif_pos held]

/-- Where nothing is unread, moving over a byte does not move. -/
theorem skipByte_of_ended {cursor : Cursor} (ended : cursor.unread = []) :
    cursor.skipByte = cursor.noteOverrun :=
  dif_neg fun held => holds_one_iff.1 held ended

@[simp]
theorem unread_noteOverrun (cursor : Cursor) : cursor.noteOverrun.unread = cursor.unread := by
  cases cursor <;> rfl

@[simp]
theorem consumed_noteOverrun (cursor : Cursor) :
    cursor.noteOverrun.consumed = cursor.consumed := by
  cases cursor <;> rfl

@[simp]
theorem remaining_noteOverrun (cursor : Cursor) :
    cursor.noteOverrun.remaining = cursor.remaining := by
  cases cursor <;> rfl

/-- A byte that was looked at is unread. -/
theorem unread_of_peekByte {cursor : Cursor} {byte : UInt8} (peeked : cursor.peekByte = .ok byte) :
    cursor.unread ≠ [] := by
  intro ended
  rw [peekByte_eq, ended] at peeked
  cases peeked

/-- A read of a byte moves over it. -/
theorem of_readByte_eq_ok {cursor next : Cursor} {byte : UInt8}
    (read : cursor.readByte = .ok (byte, next)) : cursor.advance 1 = .ok next := by
  unfold readByte at read
  cases peeked : cursor.peekByte with
  | ok first =>
      rw [peeked] at read
      cases read
      exact advance_one (unread_of_peekByte peeked)
  | error failure =>
      rw [peeked] at read
      cases read

/-- An array is what is peeked at, and a move over it. -/
theorem readArray_eq (cursor : Cursor) (count : Nat) :
    cursor.readArray count = (do
      let bytes ← cursor.peekInto count
      let next ← cursor.advance count
      return (bytes, next)) := by
  unfold readArray
  split
  · rename_i held
    rw [peekInto_eq, advance_eq_of_holds held, if_pos (le_remaining_of_holds held),
      take_span held]
    rfl
  · rfl

/-- A slice is what is peeked at, borrowed where the span holds it, and a move over it. -/
theorem readSlice_eq (cursor : Cursor) (count : Nat) :
    cursor.readSlice count = (do
      let bytes ← cursor.peekInto count
      let next ← cursor.advance count
      return (⟨bytes, decide (cursor.Holds count)⟩, next)) := by
  unfold readSlice
  split
  · rename_i held
    rw [peekInto_eq, advance_eq_of_holds held, if_pos (le_remaining_of_holds held),
      take_span held, decide_eq_true held]
    rfl
  · rename_i apart
    rw [decide_eq_false apart, ensure, peekInto_eq]
    split <;> rfl

/-- Bytes that were looked at and then moved over are the next unread ones. -/
theorem of_peekInto_advance_eq_ok {α : Type} {pack : Bytes → α} {cursor next : Cursor}
    {count : Nat} {taken : α}
    (read : (do
      let bytes ← cursor.peekInto count
      let next ← cursor.advance count
      return (pack bytes, next)) = .ok (taken, next)) :
    cursor.advance count = .ok next ∧ taken = pack (cursor.unread.take count) := by
  rw [peekInto_eq] at read
  split at read
  · cases moved : cursor.advance count with
    | ok last =>
        rw [moved] at read
        cases read
        exact ⟨rfl, rfl⟩
    | error failure =>
        rw [moved] at read
        cases read
  · cases read

/-- A read of an array moves over the bytes that it gives. -/
theorem of_readArray_eq_ok {cursor next : Cursor} {count : Nat} {bytes : Bytes}
    (read : cursor.readArray count = .ok (bytes, next)) :
    cursor.advance count = .ok next ∧ bytes = cursor.unread.take count := by
  rw [readArray_eq] at read
  exact of_peekInto_advance_eq_ok read

/-- A read of a slice moves over the bytes that it gives, and borrows them where the span holds
them. -/
theorem of_readSlice_eq_ok {cursor next : Cursor} {count : Nat} {fetched : Fetched Bytes}
    (read : cursor.readSlice count = .ok (fetched, next)) :
    cursor.advance count = .ok next ∧
      fetched = ⟨cursor.unread.take count, decide (cursor.Holds count)⟩ := by
  rw [readSlice_eq] at read
  exact of_peekInto_advance_eq_ok read

/-- Where enough bytes are unread, a slice has the next ones. -/
theorem exists_readSlice (cursor : Cursor) {count : Nat} (enough : count ≤ cursor.remaining) :
    ∃ next, cursor.advance count = .ok next ∧
      cursor.readSlice count =
        .ok (⟨cursor.unread.take count, decide (cursor.Holds count)⟩, next) := by
  obtain ⟨next, moved, _⟩ := exists_advance enough
  refine ⟨next, moved, ?_⟩
  rw [readSlice_eq, peekInto_eq, if_pos enough, moved]
  rfl

end Cursor

end MsgPack
