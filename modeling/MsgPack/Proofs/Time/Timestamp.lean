import MsgPack.Proofs.Datum.Scalar
import MsgPack.Proofs.Wire.Numeral

/-!
# What the payloads of timestamps tell

The seconds and the nanoseconds that are packed into a payload of four, eight or twelve bytes,
said apart from any check of them.  A payload is that of a timestamp if it has one of the three
lengths and its nanoseconds are less than a second, and of all payloads of a timestamp the one
that is written is the shortest.
-/

namespace MsgPack

namespace Timestamp

variable {stamp : Timestamp} {payload : Bytes}

/-! ## Packed parts -/

/-- The nanoseconds in a payload: none in four bytes, the upper 30 bits of eight, and the first
four of twelve. -/
def payloadNanoseconds (payload : Bytes) : Nat :=
  if payload.length = 8 then BigEndian.decode payload / 0x400000000
  else if payload.length = 12 then BigEndian.decode (payload.take 4)
  else 0

/-- The seconds in a payload: all of four bytes, the lower 34 bits of eight, and the last eight
of twelve, in two's complement. -/
def payloadSeconds (payload : Bytes) : Int :=
  if payload.length = 8 then (BigEndian.decode payload % 0x400000000 : Nat)
  else if payload.length = 12 then BigEndian.decodeSigned (payload.drop 4)
  else BigEndian.decode payload

/-- A payload that stands for a timestamp. -/
structure IsPayload (payload : Bytes) : Prop where
  whole : payload.length = 4 ∨ payload.length = 8 ∨ payload.length = 12
  fraction : payloadNanoseconds payload < nanosecondsPerSecond

theorem payloadNanoseconds_of_four (four : payload.length = 4) :
    payloadNanoseconds payload = 0 := by
  rw [payloadNanoseconds, four]
  rfl

theorem payloadSeconds_of_four (four : payload.length = 4) :
    payloadSeconds payload = BigEndian.decode payload := by
  rw [payloadSeconds, four]
  rfl

theorem payloadSeconds_of_eight (eight : payload.length = 8) :
    payloadSeconds payload = (BigEndian.decode payload % 0x400000000 : Nat) := by
  rw [payloadSeconds, if_pos eight]

theorem payloadSeconds_of_twelve (twelve : payload.length = 12) :
    payloadSeconds payload = BigEndian.decodeSigned (payload.drop 4) := by
  rw [payloadSeconds, twelve]
  rfl

/-- Four bytes hold a number of 32 bits. -/
theorem decode_lt_of_four (four : payload.length = 4) :
    BigEndian.decode payload < 0x100000000 := by
  have bound := BigEndian.decode_lt payload
  rwa [four] at bound

/-- The seconds in a payload of a known length are a number of 64 bits. -/
theorem toInt_payloadSeconds
    (whole : payload.length = 4 ∨ payload.length = 8 ∨ payload.length = 12) :
    (Int64.ofInt (payloadSeconds payload)).toInt = payloadSeconds payload := by
  rcases whole with four | eight | twelve
  · have bound := decode_lt_of_four four
    rw [payloadSeconds_of_four four]
    exact Int64.toInt_ofInt_of_le (by omega) (by omega)
  · rw [payloadSeconds_of_eight eight]
    exact Int64.toInt_ofInt_of_le (by omega) (by omega)
  · have bounds := BigEndian.decodeSigned_bounds (payload.drop 4)
    have room : BigEndian.capacity (payload.drop 4).length = 0x10000000000000000 := by
      rw [List.length_drop, twelve]
      rfl
    rw [payloadSeconds_of_twelve twelve]
    exact Int64.toInt_ofInt_of_le (by omega) (by omega)

/-! ## Acceptance -/

/-- A payload of a known length is judged by its nanoseconds. -/
theorem ofPayload_of_whole
    (whole : payload.length = 4 ∨ payload.length = 8 ∨ payload.length = 12) :
    ofPayload payload =
      ofParts (Int64.ofInt (payloadSeconds payload)) (payloadNanoseconds payload) := by
  rcases whole with four | eight | twelve
  · rw [payloadSeconds_of_four four, payloadNanoseconds_of_four four,
      ofParts_of_lt nanosecondsPerSecond_pos]
    simp only [ofPayload, four]
    rfl
  · simp only [ofPayload, payloadSeconds, payloadNanoseconds, eight, if_true]
  · simp only [ofPayload, payloadSeconds, payloadNanoseconds, twelve, if_true]
    rfl

/-- A payload is accepted as the timestamp whose parts it tells. -/
theorem ofPayload_eq_ok_iff : ofPayload payload = .ok stamp ↔
    (payload.length = 4 ∨ payload.length = 8 ∨ payload.length = 12) ∧
      stamp.seconds.toInt = payloadSeconds payload ∧
        stamp.nanoseconds = payloadNanoseconds payload := by
  by_cases whole : payload.length = 4 ∨ payload.length = 8 ∨ payload.length = 12
  · have seconds := toInt_payloadSeconds whole
    rw [ofPayload_of_whole whole, ofParts]
    constructor
    · intro ok
      split at ok
      · cases ok
        exact ⟨whole, seconds, rfl⟩
      · cases ok
    · rintro ⟨_, same, fraction⟩
      have valid := stamp.nanoseconds_lt
      rw [fraction] at valid
      rw [dif_pos valid]
      congr 1
      apply Timestamp.ext
      · exact Int64.toInt_inj.1 (seconds.trans same.symm)
      · exact fraction.symm
  · constructor
    · intro ok
      simp only [ofPayload] at ok
      split at ok <;> first | omega | cases ok
    · exact fun accepted => absurd accepted.1 whole

/-- The payloads that are accepted are those that stand for a timestamp. -/
theorem exists_ofPayload_iff : (∃ stamp, ofPayload payload = .ok stamp) ↔ IsPayload payload := by
  constructor
  · rintro ⟨stamp, ok⟩
    obtain ⟨whole, _, fraction⟩ := ofPayload_eq_ok_iff.1 ok
    exact ⟨whole, fraction ▸ stamp.nanoseconds_lt⟩
  · rintro ⟨whole, fraction⟩
    exact ⟨⟨_, _, fraction⟩,
      ofPayload_eq_ok_iff.2 ⟨whole, toInt_payloadSeconds whole, rfl⟩⟩

/-! ## Shortest payloads -/

/-- Seconds of 34 bits need no more than eight bytes. -/
theorem payloadLength_le_eight (below : stamp.SecondsBelow 0x400000000) :
    stamp.payloadLength ≤ 8 := by
  rw [payloadLength, if_pos below]
  split <;> decide

theorem payloadLength_le_twelve (stamp : Timestamp) : stamp.payloadLength ≤ 12 := by
  rw [payloadLength]
  repeat' split
  all_goals decide

/-- No payload that is accepted as a timestamp is shorter than the one that is written. -/
theorem payloadLength_le (ok : ofPayload payload = .ok stamp) :
    stamp.payloadLength ≤ payload.length := by
  obtain ⟨whole, seconds, nanoseconds⟩ := ofPayload_eq_ok_iff.1 ok
  -- What a payload can tell is bounded by its length, and a timestamp within these bounds is
  -- written in that length at most.
  rcases whole with four | eight | twelve
  · have bound := decode_lt_of_four four
    rw [payloadSeconds_of_four four] at seconds
    rw [payloadNanoseconds_of_four four] at nanoseconds
    have below : stamp.SecondsBelow 0x100000000 := ⟨by omega, by omega⟩
    have wide : stamp.SecondsBelow 0x400000000 := ⟨below.1, by omega⟩
    apply Nat.le_of_eq
    rw [payloadLength, if_pos wide, if_pos ⟨nanoseconds, below⟩, four]
  · rw [payloadSeconds_of_eight eight] at seconds
    rw [eight]
    exact payloadLength_le_eight ⟨by omega, by omega⟩
  · rw [twelve]
    exact stamp.payloadLength_le_twelve

/-! ## Extensions -/

/-- A payload of a few bytes is written as the extension that it is. -/
theorem write_extension {typeCode : Int8} (short : payload.length ≤ 14) :
    Write.extension typeCode payload =
      Write.emit (Value.extension typeCode payload).encoding := by
  have fits : (Value.extension typeCode payload).Fits := Nat.lt_of_le_of_lt short (by decide)
  exact Value.write_of_fits fits

theorem write_timestamp (stamp : Timestamp) :
    Write.timestamp stamp =
      Write.emit (Value.extension ExtensionCode.timestamp stamp.payload).encoding := by
  have short : stamp.payload.length ≤ 14 := by
    have bound := stamp.payloadLength_le_twelve
    rw [length_payload]
    omega
  exact write_extension short

/-- The payload of a timestamp and an offset. -/
def offsetPayload (stamp : Timestamp) (minutes : Int16) : Bytes :=
  stamp.payload ++ BigEndian.encodeSigned 2 minutes.toInt

theorem length_offsetPayload (stamp : Timestamp) (minutes : Int16) :
    (stamp.offsetPayload minutes).length = stamp.payloadLength + 2 := by
  rw [offsetPayload, List.length_append, length_payload, BigEndian.length_encodeSigned]

theorem write_dateTimeOffset (stamp : Timestamp) (minutes : Int16) :
    Write.dateTimeOffset stamp minutes = Write.emit
      (Value.extension ExtensionCode.dateTimeOffset (stamp.offsetPayload minutes)).encoding := by
  have short : (stamp.offsetPayload minutes).length ≤ 14 := by
    have bound := stamp.payloadLength_le_twelve
    rw [length_offsetPayload]
    omega
  exact write_extension short

/-- The bytes of a timestamp and an offset are read as these. -/
theorem takes_dateTimeOffset (stamp : Timestamp) (minutes : Int16) :
    Read.Takes 0 Read.dateTimeOffset
      (Value.extension ExtensionCode.dateTimeOffset (stamp.offsetPayload minutes)).encoding
      (stamp, minutes) := by
  have length := stamp.length_offsetPayload minutes
  have whole := (ofPayload_eq_ok_iff.1 stamp.ofPayload_payload).1
  rw [length_payload] at whole
  have low := minutes.le_toInt
  have high := minutes.toInt_lt
  have two : BigEndian.capacity 2 = 0x10000 := rfl
  have offset : Int16.ofInt (BigEndian.decodeSigned (BigEndian.encodeSigned 2 minutes.toInt)) =
      minutes := by
    rw [BigEndian.decodeSigned_encodeSigned (by omega) (by omega), Int16.ofInt_toInt]
  have split : (stamp.offsetPayload minutes).length - 2 = stamp.payload.length := by
    rw [length, length_payload, Nat.add_sub_cancel]
  apply (Read.takes_extensionHeaderWith ExtensionCode.dateTimeOffset (by omega)).bind
  apply Read.takes_rawBytesThen fun _ => rfl
  dsimp only
  rw [if_pos (by omega), split, offsetPayload, List.take_left, List.drop_left,
    ofPayload_payload, offset]
  exact .pure (stamp, minutes)

end Timestamp

/-- The payload of a timestamp has the length that is announced, is read as that timestamp, and
is the shortest that is; the extensions of a timestamp, and of a timestamp with any offset, are
read as what they were written for, and just their bytes are passed over.  The payloads that are
read at all are those of four, eight or twelve bytes with nanoseconds of less than a second, and
what they are read as has their seconds and nanoseconds, is written in no more bytes and is read
from these again. -/
theorem Timestamp.payload_exact :
    (∀ stamp : Timestamp,
      stamp.payload.length = stamp.payloadLength ∧ ofPayload stamp.payload = .ok stamp ∧
      (∀ payload, ofPayload payload = .ok stamp → stamp.payload.length ≤ payload.length) ∧
      (∃ bytes, (∀ writer, Write.timestamp stamp writer = .ok () (writer.append bytes)) ∧
        Read.Takes 0 Read.timestamp bytes stamp) ∧
      ∀ minutes : Int16, ∃ bytes,
        (∀ writer, Write.dateTimeOffset stamp minutes writer = .ok () (writer.append bytes)) ∧
          Read.Takes 0 Read.dateTimeOffset bytes (stamp, minutes)) ∧
    ∀ payload : Bytes, ((∃ stamp, ofPayload payload = .ok stamp) ↔ IsPayload payload) ∧
      ∀ stamp, ofPayload payload = .ok stamp →
        stamp.seconds.toInt = payloadSeconds payload ∧
          stamp.nanoseconds = payloadNanoseconds payload ∧
          stamp.payload.length ≤ payload.length ∧ ofPayload stamp.payload = .ok stamp := by
  refine ⟨?written, ?read⟩
  case written =>
    intro stamp
    have least {payload : Bytes} (ok : ofPayload payload = .ok stamp) :
        stamp.payload.length ≤ payload.length := by
      rw [length_payload]
      exact payloadLength_le ok
    refine ⟨stamp.length_payload, stamp.ofPayload_payload, fun _ => least, ?stamp, ?offset⟩
    case stamp =>
      refine ⟨_, fun writer => ?_, Scalar.takes_timestamp stamp⟩
      rw [write_timestamp]
      rfl
    case offset =>
      intro minutes
      refine ⟨_, fun writer => ?_, takes_dateTimeOffset stamp minutes⟩
      rw [write_dateTimeOffset]
      rfl
  case read =>
    intro payload
    refine ⟨exists_ofPayload_iff, fun stamp ok => ?_⟩
    obtain ⟨_, seconds, nanoseconds⟩ := ofPayload_eq_ok_iff.1 ok
    rw [length_payload]
    exact ⟨seconds, nanoseconds, payloadLength_le ok, stamp.ofPayload_payload⟩

/-- Twelve bytes for a second of the epoch are read, and four are enough for it. -/
theorem Timestamp.payload_exact_of_wide :
    ∃ stamp : Timestamp, ofPayload [0, 0, 0, 0, 0, 0, 0, 0, 0, 0, 0, 7] = .ok stamp ∧
      stamp.seconds.toInt = 7 ∧ stamp.payload.length ≤ 12 ∧
      ofPayload stamp.payload = .ok stamp := by
  obtain ⟨accepted, reads⟩ :=
    Timestamp.payload_exact.2 [0, 0, 0, 0, 0, 0, 0, 0, 0, 0, 0, 7]
  obtain ⟨stamp, ok⟩ := accepted.2 ⟨.inr (.inr rfl), by decide⟩
  obtain ⟨seconds, _, short, again⟩ := reads stamp ok
  have seven : payloadSeconds [0, 0, 0, 0, 0, 0, 0, 0, 0, 0, 0, 7] = 7 := by decide
  exact ⟨stamp, ok, seconds.trans seven, short, again⟩

end MsgPack
