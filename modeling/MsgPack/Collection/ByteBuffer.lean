import MsgPack.Wire.BigEndian

/-!
# Byte buffers

Binary data that can be changed at its end.  Buffers are ordered by their first byte that
differs, and a buffer comes before those that it begins.
-/

namespace MsgPack

/-- A byte buffer. -/
structure ByteBuffer where
  bytes : Bytes
  deriving DecidableEq

namespace ByteBuffer

/-- A buffer without bytes. -/
def empty : ByteBuffer := ⟨[]⟩

/-- The number of bytes. -/
def size (buffer : ByteBuffer) : Nat :=
  buffer.bytes.length

/-- Appends bytes. -/
def append (buffer : ByteBuffer) (bytes : Bytes) : ByteBuffer :=
  ⟨buffer.bytes ++ bytes⟩

/-- Keeps at most the first bytes. -/
def truncate (buffer : ByteBuffer) (count : Nat) : ByteBuffer :=
  ⟨buffer.bytes.take count⟩

/-- The last byte. -/
def last? (buffer : ByteBuffer) : Option UInt8 :=
  buffer.bytes.getLast?

/-- The buffer without its last byte. -/
def dropLast (buffer : ByteBuffer) : ByteBuffer :=
  ⟨buffer.bytes.dropLast⟩

/-- The byte at a place. -/
def get? (buffer : ByteBuffer) (place : Nat) : Option UInt8 :=
  buffer.bytes[place]?

/-- The order of bytes by their first difference. -/
def compareBytes : Bytes → Bytes → Ordering
  | [], [] => .eq
  | [], _ :: _ => .lt
  | _ :: _, [] => .gt
  | left :: lefts, right :: rights =>
      if left < right then .lt
      else if right < left then .gt
      else compareBytes lefts rights

/-- The order of buffers. -/
def compare (left right : ByteBuffer) : Ordering :=
  compareBytes left.bytes right.bytes

@[simp]
theorem size_append (buffer : ByteBuffer) (bytes : Bytes) :
    (buffer.append bytes).size = buffer.size + bytes.length := by
  simp [append, size]

end ByteBuffer

end MsgPack
