import MsgPack.Datum.Basic
import MsgPack.Number.Guid
import MsgPack.Value.Wire

/-!
# Scalar types on the wire

How each scalar type is written and read.  Integers take their shortest form, and any form
is read that holds a number of the range.  A time with several parts that is no timestamp,
and a socket address, are arrays of two numbers; reading one does not count as opening a
nested structure.  Dates are the numbers of their days.
-/

namespace MsgPack

namespace Write

/-- Writes the result of a conversion. -/
def withResult {α : Type} (result : Except Error α) (write : α → Write Unit) : Write Unit :=
  match result with
  | .ok converted => write converted
  | .error failure => throw failure

/-- Writes two numbers as an array. -/
def pair (first second : Int) : Write Unit := do
  fixedHeader .fixArray 2
  int first
  int second

/-- Writes an identifier. -/
def guid (bytes : Bytes) : Write Unit :=
  extension ExtensionCode.guid (GuidFields.ofBytes bytes).payload

/-- Writes a decimal number. -/
def decimal (number : Decimal) : Write Unit :=
  extension ExtensionCode.decimal number.payload

end Write

namespace Scalar

/-- Writes a value of a scalar type. -/
def write : Scalar → Atom → Write Unit
  | .unit, .unit => Write.nil
  | .bool, .bool truth => Write.bool truth
  | .int _, .int number => Write.int number
  | .float32, .float32 bits => Write.float32 bits
  | .float64, .float64 bits => Write.float64 bits
  | .char, .char character => Write.int character.toNat
  | .string, .text content => Write.str content
  | .smallString, .text content => Write.str content
  | .bytes, .bytes content => Write.bin content
  | .byteBuffer, .bytes content => Write.bin content
  | .value, .value content => content.write
  | .timestamp, .timestamp stamp => Write.timestamp stamp
  | .systemTime, .systemTime clock => Write.timestamp clock.toTimestamp
  | .duration, .duration span => Write.pair span.seconds.toNat span.nanoseconds
  | .ipv4, .address octets => Write.bin octets
  | .ipv6, .address octets => Write.bin octets
  | .ip, .address octets => Write.bin octets
  | .socket, .socket octets port _ _ => do
      Write.fixedHeader .fixArray 2
      Write.bin octets
      Write.int port
  | .utcDateTime, .instant moment => Write.withResult moment.toTimestamp Write.timestamp
  | .plainDateTime, .instant moment => Write.withResult moment.toTimestamp Write.timestamp
  | .offsetDateTime, .zoned moment =>
      Write.withResult moment.toTimestamp fun (stamp, minutes) =>
        Write.dateTimeOffset stamp minutes
  | .date, .date day => Write.int day.number
  | .time, .time clock => Write.pair clock.seconds clock.nanoseconds
  | .guid, .bytes content => Write.guid content
  | .decimal, .decimal number => Write.decimal number
  | type, _ => throw (.unwritable (.anotherType type.typeName))

end Scalar

namespace Read

/-- Reads the header of an array that must have a certain length. -/
def arrayOf (length : Nat) (typeName : String) : Read Unit := do
  let count ← arrayHeader
  if count = length then return ()
  else throw (.countMismatch typeName length count)

/-- Reads a network address; its length tells the family. -/
def address : Read Bytes := do
  let octets := (← bin).content
  if octets.length = 4 ∨ octets.length = 16 then return octets
  else throw (.invalidValue (.addressLength octets.length))

/-- Reads a socket address.  No flow label and no scope is on the wire. -/
def socket : Read Atom := do
  arrayOf 2 "SocketAddr"
  let octets ← address
  return .socket octets (← int .u16).toNat 0 0

/-- Reads a duration. -/
def duration : Read Duration := do
  arrayOf 2 "Duration"
  let seconds ← int .u64
  let nanoseconds := (← int .u32).toNat
  if valid : nanoseconds < nanosecondsPerSecond then
    return ⟨UInt64.ofNat seconds.toNat, nanoseconds, valid⟩
  else throw (.invalidValue (.durationNanoseconds nanoseconds))

/-- Reads an instant. -/
def instant : Read Instant := do
  ofExcept (Instant.ofTimestamp (← timestamp))

/-- Reads an instant and the offset of its clock. -/
def zonedInstant : Read ZonedInstant := do
  let (stamp, minutes) ← dateTimeOffset
  ofExcept (ZonedInstant.ofTimestamp stamp minutes)

/-- Reads a date. -/
def date : Read Date := do
  let number ← int .i32
  match Date.ofNumber? number with
  | some day => return day
  | none => throw (.invalidValue (.date number))

/-- Reads a time of day. -/
def clockTime : Read ClockTime := do
  arrayOf 2 "NaiveTime"
  let seconds := (← int .u32).toNat
  let nanoseconds := (← int .u32).toNat
  match ClockTime.ofParts? seconds nanoseconds with
  | some clock => return clock
  | none => throw (.invalidValue (.time seconds nanoseconds))

/-- Reads an identifier. -/
def guid : Read Bytes := do
  return (GuidFields.ofPayload (← fixedExtension 16 ExtensionCode.guid)).toBytes

/-- Reads a decimal number. -/
def decimal : Read Decimal := do
  ofExcept (Decimal.ofPayload (← fixedExtension 16 ExtensionCode.decimal))

end Read

namespace Scalar

/-- Reads a value of a scalar type. -/
def read : Scalar → Read Atom
  | .unit => do
      Read.nil
      return .unit
  | .bool => return .bool (← Read.bool)
  | .int .usize => return .int (← Read.size .usize)
  | .int .isize => return .int (← Read.size .isize)
  | .int range => return .int (← Read.int range)
  | .float32 => return .float32 (← Read.float32)
  | .float64 => return .float64 (← Read.float64)
  | .char => return .char (← Read.char)
  | .string => return .text (← Read.string)
  | .smallString => return .text (← Read.string)
  | .bytes => return .bytes (← Read.bin).content
  | .byteBuffer => return .bytes (← Read.bin).content
  | .value => return .value (← Value.read)
  | .timestamp => return .timestamp (← Read.timestamp)
  | .systemTime => return .systemTime (SystemTime.ofTimestamp (← Read.timestamp))
  | .duration => return .duration (← Read.duration)
  | .ipv4 => return .address (← Read.fixedBin 4 "Ipv4Addr")
  | .ipv6 => return .address (← Read.fixedBin 16 "Ipv6Addr")
  | .ip => return .address (← Read.address)
  | .socket => Read.socket
  | .utcDateTime => return .instant (← Read.instant)
  | .plainDateTime => return .instant (← Read.instant)
  | .offsetDateTime => return .zoned (← Read.zonedInstant)
  | .date => return .date (← Read.date)
  | .time => return .time (← Read.clockTime)
  | .guid => return .bytes (← Read.guid)
  | .decimal => return .decimal (← Read.decimal)

end Scalar

end MsgPack
