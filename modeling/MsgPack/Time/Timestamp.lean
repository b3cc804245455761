import MsgPack.Error

/-!
# Timestamps

A timestamp is a number of seconds since the epoch and a fraction of a second in
nanoseconds.  On the wire it has one of three payloads, and the shortest that can hold it is
written:

* four bytes, the seconds alone, when there is no fraction and the seconds are a number of
  32 bits;
* eight bytes, the nanoseconds in the upper 30 bits and the seconds in the lower 34, when
  the seconds are a number of 34 bits;
* twelve bytes, the nanoseconds in four and the seconds in eight, for all other timestamps.
-/

namespace MsgPack

/-- How many nanoseconds make a second. -/
def nanosecondsPerSecond : Nat := 1000000000

theorem nanosecondsPerSecond_pos : 0 < nanosecondsPerSecond := by
  decide

/-- Seconds and nanoseconds since the epoch; the nanoseconds count forward also before it. -/
@[ext]
structure Timestamp where
  seconds : Int64
  nanoseconds : Nat
  /-- The fraction is less than a second. -/
  nanoseconds_lt : nanoseconds < nanosecondsPerSecond

namespace Timestamp

instance : DecidableEq Timestamp := fun _ _ =>
  decidable_of_iff _ Timestamp.ext_iff.symm

/-- A whole number of seconds. -/
def ofSeconds (seconds : Int64) : Timestamp :=
  ⟨seconds, 0, nanosecondsPerSecond_pos⟩

/-- The timestamp with these parts, if the nanoseconds are less than a second. -/
def ofParts (seconds : Int64) (nanoseconds : Nat) : Except Error Timestamp :=
  if valid : nanoseconds < nanosecondsPerSecond then .ok ⟨seconds, nanoseconds, valid⟩
  else .error (.invalidValue (.timestampNanoseconds nanoseconds))

/-- The seconds are a natural number below a bound. -/
def SecondsBelow (timestamp : Timestamp) (bound : Int) : Prop :=
  0 ≤ timestamp.seconds.toInt ∧ timestamp.seconds.toInt < bound

instance (timestamp : Timestamp) (bound : Int) : Decidable (timestamp.SecondsBelow bound) :=
  inferInstanceAs (Decidable (_ ∧ _))

/-- The length of the payload. -/
def payloadLength (timestamp : Timestamp) : Nat :=
  if timestamp.SecondsBelow 0x400000000 then
    if timestamp.nanoseconds = 0 ∧ timestamp.SecondsBelow 0x100000000 then 4 else 8
  else 12

/-- The bytes that stand for a timestamp. -/
def payload (timestamp : Timestamp) : Bytes :=
  if timestamp.SecondsBelow 0x400000000 then
    if timestamp.nanoseconds = 0 ∧ timestamp.SecondsBelow 0x100000000 then
      BigEndian.encode 4 timestamp.seconds.toInt.toNat
    else
      BigEndian.encode 8 (timestamp.nanoseconds * 0x400000000 + timestamp.seconds.toInt.toNat)
  else
    BigEndian.encode 4 timestamp.nanoseconds
      ++ BigEndian.encodeSigned 8 timestamp.seconds.toInt

/-- The length announced is the length written. -/
@[simp]
theorem length_payload (timestamp : Timestamp) :
    timestamp.payload.length = timestamp.payloadLength := by
  unfold payload payloadLength
  split
  · split <;> simp
  · simp

/-- Reads a payload of four, eight or twelve bytes. -/
def ofPayload (payload : Bytes) : Except Error Timestamp :=
  match payload.length with
  | 4 => .ok (ofSeconds (Int64.ofInt (BigEndian.decode payload)))
  | 8 =>
      let packed := BigEndian.decode payload
      ofParts (Int64.ofInt (packed % 0x400000000 : Nat)) (packed / 0x400000000)
  | 12 =>
      ofParts (Int64.ofInt (BigEndian.decodeSigned (payload.drop 4)))
        (BigEndian.decode (payload.take 4))
  | length => .error (.invalidValue (.timestampPayload length))

/-- Timestamps in the order of time. -/
def compare (left right : Timestamp) : Ordering :=
  (Ord.compare left.seconds.toInt right.seconds.toInt).then
    (Ord.compare left.nanoseconds right.nanoseconds)

end Timestamp

end MsgPack
