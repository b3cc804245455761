import MsgPack.Wire.BigEndian

/-!
# Numbers as they lie in memory

The layout of machine words in memory, least significant byte first.  It is defined here on
its own, digit by digit, beside the big-endian numbers of the wire; formatters that copy a
record as it lies in memory are defined through it, those that write field by field through
the reversed big-endian bytes.
-/

namespace MsgPack.Memory

/-- A word of `count` bytes as it lies in memory. -/
def image : Nat → Nat → Bytes
  | 0, _ => []
  | count + 1, number => UInt8.ofNat (number % 256) :: image count (number / 256)

/-- The word that lies in memory as these bytes. -/
def word : Bytes → Nat
  | [] => 0
  | byte :: rest => byte.toNat + 256 * word rest

@[simp]
theorem length_image (count number : Nat) : (image count number).length = count := by
  induction count generalizing number with
  | zero => rfl
  | succ count ih => simp [image, ih]

end MsgPack.Memory
