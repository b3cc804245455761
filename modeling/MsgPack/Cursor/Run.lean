import MsgPack.Error

/-!
# Positions in one run of bytes

A position in one run of bytes counts the bytes before it.  All that is unread lies in one
piece, so nothing is ever gathered from several places, and a move is an addition.
-/

namespace MsgPack

/-- A position in one run of bytes. -/
structure RunCursor where
  buffer : Array UInt8
  position : Nat
  /-- The bytes from the position on. -/
  ahead : Bytes
  /-- Whether a move was asked for that the bytes did not hold. -/
  overran : Bool
  ahead_eq : ahead = buffer.toList.drop position
  position_le : position ≤ buffer.size

namespace RunCursor

/-- The start of some bytes. -/
def start (bytes : Bytes) : RunCursor where
  buffer := bytes.toArray
  position := 0
  ahead := bytes
  overran := false
  ahead_eq := rfl
  position_le := Nat.zero_le _

/-- How many bytes are unread. -/
def remaining (cursor : RunCursor) : Nat :=
  cursor.buffer.size - cursor.position

theorem length_ahead (cursor : RunCursor) : cursor.ahead.length = cursor.remaining := by
  rw [cursor.ahead_eq, List.length_drop, Array.length_toList, remaining]

/-- Moves over `count` bytes, which must be there. -/
def advanceWithin (cursor : RunCursor) (count : Nat) (held : count ≤ cursor.ahead.length) :
    RunCursor :=
  { cursor with
    position := cursor.position + count
    ahead := cursor.ahead.drop count
    ahead_eq := by rw [cursor.ahead_eq, List.drop_drop]
    position_le := by
      rw [length_ahead, remaining] at held
      have inside := cursor.position_le
      omega }

/-- Moves over `count` bytes. -/
def advance (cursor : RunCursor) (count : Nat) : Except Error RunCursor :=
  if enough : count ≤ cursor.remaining then
    .ok (cursor.advanceWithin count (cursor.length_ahead ▸ enough))
  else .error (.insufficientData count cursor.remaining)

/-- The next `count` bytes, which stay unread. -/
def peekInto (cursor : RunCursor) (count : Nat) : Except Error Bytes :=
  if count ≤ cursor.remaining then
    .ok (cursor.buffer.extract cursor.position (cursor.position + count)).toList
  else .error (.insufficientData count cursor.remaining)

/-- The bytes that are read and those that are unread make up the run. -/
theorem position_add_remaining (cursor : RunCursor) :
    cursor.position + cursor.remaining = cursor.buffer.size :=
  Nat.add_sub_cancel' cursor.position_le

theorem remaining_advanceWithin (cursor : RunCursor) {count : Nat}
    (held : count ≤ cursor.ahead.length) :
    (cursor.advanceWithin count held).remaining = cursor.remaining - count :=
  Nat.sub_add_eq _ _ _

/-- What is peeked at lies ahead. -/
theorem peekInto_eq (cursor : RunCursor) (count : Nat) :
    cursor.peekInto count =
      if count ≤ cursor.remaining then .ok (cursor.ahead.take count)
      else .error (.insufficientData count cursor.remaining) := by
  rw [peekInto, Array.toList_extract, List.extract_eq_take_drop, Nat.add_sub_cancel_left,
    ← cursor.ahead_eq]

end RunCursor

end MsgPack
