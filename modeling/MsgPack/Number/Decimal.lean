import MsgPack.Error
import MsgPack.Wire.Memory

/-!
# Decimal numbers

A decimal number is a mantissa of 96 bits with a sign and a scale, the number of digits
after the point.  Zero has no sign.  On the wire it is four words of 32 bits, each with its
least significant byte first: the flags, which hold scale and sign, and the mantissa from
its low word to its high one.  The words are written one by one, or copied as they lie in
memory.
-/

namespace MsgPack

/-- A decimal number. -/
structure Decimal where
  negative : Bool
  scale : Nat
  mantissa : Nat
  deriving DecidableEq

/-- The four words of a decimal number. -/
structure DecimalWords where
  flags : Nat
  low : Nat
  middle : Nat
  high : Nat

namespace Decimal

/-- The greatest scale. -/
def maxScale : Nat := 28

/-- The number with these parts; a zero loses its sign. -/
def ofParts (negative : Bool) (scale mantissa : Nat) : Decimal :=
  ⟨negative && mantissa != 0, scale, mantissa⟩

/-- The words of a number. -/
def words (decimal : Decimal) : DecimalWords :=
  { flags := decimal.scale * 0x10000 + if decimal.negative then 0x80000000 else 0
    low := decimal.mantissa % 0x100000000
    middle := decimal.mantissa / 0x100000000 % 0x100000000
    high := decimal.mantissa / 0x10000000000000000 }

/-- The number that words denote, if the flags hold nothing but a sign and a scale. -/
def ofWords (words : DecimalWords) : Except Error Decimal :=
  let scale := words.flags / 0x10000 % 0x100
  let unused := words.flags % 0x10000 + words.flags / 0x1000000 % 0x80
  if scale ≤ maxScale ∧ unused = 0 then
    .ok (ofParts (words.flags / 0x80000000 = 1) scale
      (words.low + words.middle * 0x100000000 + words.high * 0x10000000000000000))
  else .error (.invalidValue (.decimalFlags words.flags))

/-- The number in units of the last place of the greatest scale. -/
def units (decimal : Decimal) : Int :=
  let magnitude : Int := decimal.mantissa * Nat.pow 10 (maxScale - decimal.scale)
  if decimal.negative then -magnitude else magnitude

/-! ## Word by word -/

/-- A word with its least significant byte first. -/
def wordBytes (word : Nat) : Bytes :=
  (BigEndian.encode 4 word).reverse

/-- The payload, each word written on its own. -/
def payload (decimal : Decimal) : Bytes :=
  let words := decimal.words
  wordBytes words.flags ++ wordBytes words.low ++ wordBytes words.middle ++ wordBytes words.high

/-- The number of a payload of sixteen bytes, each word read on its own. -/
def ofPayload (payload : Bytes) : Except Error Decimal :=
  let word (start : Nat) := BigEndian.decode ((payload.drop start).take 4).reverse
  ofWords ⟨word 0, word 4, word 8, word 12⟩

/-! ## As words in memory -/

/-- The words as they lie in memory. -/
def image (decimal : Decimal) : Bytes :=
  let words := decimal.words
  [words.flags, words.low, words.middle, words.high].flatMap (Memory.image 4)

/-- The number whose words lie in memory as these bytes. -/
def ofImage (bytes : Bytes) : Except Error Decimal :=
  let word (start : Nat) := Memory.word ((bytes.drop start).take 4)
  ofWords ⟨word 0, word 4, word 8, word 12⟩

end Decimal

end MsgPack
