import MsgPack.Integer

/-!
# Floating point numbers as bit patterns

A floating point number is kept as the bits that stand for it, so that every pattern
survives, those of the not-a-numbers included.  A pattern unpacks to a sign, a significand
and a power of two.  Packing rounds any significand and power to the nearest number of the
format, ties to the even one; every conversion between formats, and from integers, is one
unpacking and one packing.
-/

namespace MsgPack

/-- A binary interchange format: the sizes of its fraction and exponent fields. -/
structure BinaryFormat where
  fractionBits : Nat
  exponentBits : Nat

namespace BinaryFormat

/-- The format of 32 bits. -/
def single : BinaryFormat := ⟨23, 8⟩

/-- The format of 64 bits. -/
def double : BinaryFormat := ⟨52, 11⟩

/-- The power of two of the last place of the subnormal numbers. -/
def leastExponent (format : BinaryFormat) : Int :=
  2 - (1 <<< (format.exponentBits - 1) : Nat) - format.fractionBits

/-- The pattern of positive infinity. -/
def infinity (format : BinaryFormat) : Nat :=
  ((1 <<< format.exponentBits) - 1) <<< format.fractionBits

/-- The pattern of the quiet not-a-number without payload. -/
def quietNaN (format : BinaryFormat) : Nat :=
  format.infinity + (1 <<< (format.fractionBits - 1))

/-- The weight of the sign bit. -/
def signWeight (format : BinaryFormat) : Nat :=
  1 <<< (format.fractionBits + format.exponentBits)

end BinaryFormat

/-- What a pattern stands for. -/
inductive Unpacked where
  | notANumber
  | infinite (negative : Bool)
  /-- `significand` times two to the power of `exponent`, with a sign. -/
  | finite (negative : Bool) (significand : Nat) (exponent : Int)
  deriving DecidableEq

namespace BinaryFormat

/-- What a pattern of the format stands for. -/
def unpack (format : BinaryFormat) (bits : Nat) : Unpacked :=
  let fraction := bits % (1 <<< format.fractionBits)
  let exponent := (bits >>> format.fractionBits) % (1 <<< format.exponentBits)
  let negative := bits / format.signWeight % 2 = 1
  if exponent = (1 <<< format.exponentBits) - 1 then
    if fraction = 0 then .infinite negative else .notANumber
  else if exponent = 0 then .finite negative fraction format.leastExponent
  else
    .finite negative ((1 <<< format.fractionBits) + fraction)
      (format.leastExponent + (exponent - 1 : Nat))

/-- A quotient rounded to the nearest natural number, ties to the even one. -/
def roundQuotient (numerator denominator : Nat) : Nat :=
  let quotient := numerator / denominator
  let rest := numerator % denominator
  if 2 * rest < denominator then quotient
  else if denominator < 2 * rest then quotient + 1
  else quotient + quotient % 2

/-- The pattern nearest to a significand times a power of two, without the sign.  A number
beyond the largest finite one becomes infinity. -/
def packMagnitude (format : BinaryFormat) (significand : Nat) (exponent : Int) : Nat :=
  if significand = 0 then 0
  else
    let places : Int := significand.log2 + 1
    let target := max format.leastExponent (exponent + places - (format.fractionBits + 1 : Nat))
    let rounded :=
      if target ≤ exponent then significand <<< (exponent - target).toNat
      else roundQuotient significand (1 <<< (target - exponent).toNat)
    let pattern :=
      ((target - format.leastExponent).toNat <<< format.fractionBits) + rounded
    min pattern format.infinity

/-- The pattern for what another pattern, perhaps of another format, stands for. -/
def pack (format : BinaryFormat) : Unpacked → Nat
  | .notANumber => format.quietNaN
  | .infinite negative => format.infinity + if negative then format.signWeight else 0
  | .finite negative significand exponent =>
      format.packMagnitude significand exponent + if negative then format.signWeight else 0

/-- The pattern nearest to an integer. -/
def ofInt (format : BinaryFormat) (number : Int) : Nat :=
  format.pack (.finite (number < 0) number.natAbs 0)

/-- Whether two patterns compare equal as numbers: not-a-numbers equal nothing, and the two
zeros are equal. -/
def equal (format : BinaryFormat) (left right : Nat) : Bool :=
  match format.unpack left, format.unpack right with
  | .notANumber, _ => false
  | _, .notANumber => false
  | .finite _ 0 _, .finite _ 0 _ => true
  | _, _ => left = right

end BinaryFormat

namespace Float

/-- The double that equals a single. -/
def widen (bits : UInt32) : UInt64 :=
  UInt64.ofNat (BinaryFormat.double.pack (BinaryFormat.single.unpack bits.toNat))

/-- The single nearest to a double. -/
def narrow (bits : UInt64) : UInt32 :=
  UInt32.ofNat (BinaryFormat.single.pack (BinaryFormat.double.unpack bits.toNat))

/-- The double nearest to an integer. -/
def doubleOfInt (number : Int) : UInt64 :=
  UInt64.ofNat (BinaryFormat.double.ofInt number)

end Float

end MsgPack
