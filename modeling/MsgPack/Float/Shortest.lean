import MsgPack.Float.Binary

/-!
# The shortest decimal of a floating point number

The decimal with the fewest digits that lies nearer to a number than to any other number of
its format, so that reading it gives the number back.  The numbers that round to a given one
form an interval, whose ends belong to it when the significand is even.  Grids of powers of
ten are tried from coarse to fine; on each only the two neighbours of the number matter.  Of
two neighbours within the interval the nearer one is taken, and the upper one when they are
equally near.

The text is always positional: no exponent is ever written, and no point without digits
after it.
-/

namespace MsgPack

/-- A decimal: a natural number times a power of ten. -/
structure DecimalDigits where
  digits : Nat
  exponent : Int
  deriving DecidableEq

namespace DecimalDigits

/-- The text of a decimal without exponent. -/
def positional (decimal : DecimalDigits) : String :=
  let written := (toString decimal.digits).toList
  match decimal.exponent with
  | .ofNat zeros => String.ofList (written ++ List.replicate zeros '0')
  | .negSucc places =>
      let places := places + 1
      let padded := List.replicate (places + 1 - written.length) '0' ++ written
      let whole := padded.length - places
      String.ofList (padded.take whole ++ '.' :: padded.drop whole)

end DecimalDigits

/-- A number and the ends of the interval that rounds to it, as natural numbers over one
common denominator. -/
structure RoundingInterval where
  low : Nat
  value : Nat
  high : Nat
  denominator : Nat
  /-- Whether the ends belong to the interval. -/
  closed : Bool

namespace RoundingInterval

/-- The interval of a positive number of the format. -/
def of (format : BinaryFormat) (significand : Nat) (exponent : Int) : RoundingInterval :=
  -- The gap below a power of two is half the gap above it, but for the least normal number.
  let narrowBelow :=
    significand = 1 <<< format.fractionBits && decide (format.leastExponent < exponent)
  let places := exponent.toNat
  { low := (4 * significand - if narrowBelow then 1 else 2) <<< places
    value := (4 * significand) <<< places
    high := (4 * significand + 2) <<< places
    denominator := 4 <<< (-exponent).toNat
    closed := significand % 2 = 0 }

/-- The interval in units of a power of ten. -/
def inUnits (interval : RoundingInterval) (exponent : Int) : RoundingInterval :=
  let scale := Nat.pow 10 (-exponent).toNat
  { interval with
    low := interval.low * scale
    value := interval.value * scale
    high := interval.high * scale
    denominator := interval.denominator * Nat.pow 10 exponent.toNat }

/-- Whether a natural number lies in the interval. -/
def contains (interval : RoundingInterval) (number : Nat) : Bool :=
  let scaled := number * interval.denominator
  if interval.closed then interval.low ≤ scaled && scaled ≤ interval.high
  else interval.low < scaled && scaled < interval.high

/-- The neighbour of the value that the interval contains, the nearer one if it contains
both. -/
def neighbour? (interval : RoundingInterval) : Option Nat :=
  let below := interval.value / interval.denominator
  let rest := interval.value % interval.denominator
  match interval.contains below, interval.contains (below + 1) with
  | true, true => some (if 2 * rest < interval.denominator then below else below + 1)
  | true, false => some below
  | false, true => some (below + 1)
  | false, false => none

/-- Tries the grids from a power of ten downwards. -/
def search (interval : RoundingInterval) (exponent : Int) : Nat → Option DecimalDigits
  | 0 => none
  | grids + 1 =>
      match (interval.inUnits exponent).neighbour? with
      | some digits => some ⟨digits, exponent⟩
      | none => interval.search (exponent - 1) grids

/-- The shortest decimal within the interval. -/
def shortest? (interval : RoundingInterval) : Option DecimalDigits :=
  let whole := interval.high / interval.denominator
  let start := (toString whole).length
  interval.search start (start + 2 + (toString interval.denominator).length)

end RoundingInterval

namespace BinaryFormat

/-- The text of the number that a pattern stands for. -/
def text (format : BinaryFormat) (bits : Nat) : String :=
  match format.unpack bits with
  | .notANumber => "NaN"
  | .infinite negative => if negative then "-inf" else "inf"
  | .finite negative significand exponent =>
      let magnitude :=
        if significand = 0 then "0"
        else
          match (RoundingInterval.of format significand exponent).shortest? with
          | some decimal => decimal.positional
          | none => ""
      if negative then "-" ++ magnitude else magnitude

end BinaryFormat

end MsgPack
