import MsgPack.Datum.Scalar
import MsgPack.Proofs.Reader.Composed

/-!
# Scalar reads as compositions

Reading a value of a scalar type is composed of elementary reads, and what can be wrong with
the value besides has no place in the source.
-/

namespace MsgPack

open Read

variable {deep : Bool}

namespace Read

theorem composed_arrayOf (length : Nat) (typeName : String) :
    Composed deep false (arrayOf length typeName) :=
  composed_arrayHeader.bind fun _ => (Composed.pure ()).ite (.throw trivial)

theorem composed_address : Composed deep false address :=
  composed_binThen (fun _ => rfl) fun _ => (Composed.pure _).ite (.throw trivial)

theorem composed_socket : Composed deep false socket :=
  (composed_arrayOf 2 "SocketAddr").bind fun _ =>
    composed_address.bind fun _ => (composed_int .u16).mapped _

theorem composed_duration : Composed deep false duration := by
  apply (composed_arrayOf 2 "Duration").bind
  intro _
  apply (composed_int .u64).bind
  intro _
  apply (composed_int .u32).bind
  intro _
  dsimp only
  split
  · exact .pure _
  · exact .throw trivial

/-- A time out of the range of the calendar is an invalid value. -/
theorem placeless_instant (timestamp : Timestamp) : Placeless (Instant.ofTimestamp timestamp) := by
  unfold Instant.ofTimestamp
  dsimp only
  split
  · exact .ok _
  · exact .error trivial

theorem composed_instant : Composed deep false instant :=
  composed_timestamp.bind fun timestamp => .ofExcept (placeless_instant timestamp)

theorem composed_zonedInstant : Composed deep false zonedInstant := by
  apply composed_dateTimeOffset.bind
  intro found
  apply Composed.ofExcept
  unfold ZonedInstant.ofTimestamp
  split
  · exact (placeless_instant found.1).bind fun _ => .ok _
  · exact .error trivial

theorem composed_date : Composed deep false date := by
  apply (composed_int .i32).bind
  intro number
  split
  · exact .pure _
  · exact .throw trivial

theorem composed_clockTime : Composed deep false clockTime := by
  apply (composed_arrayOf 2 "NaiveTime").bind
  intro _
  apply (composed_int .u32).bind
  intro _
  apply (composed_int .u32).bind
  intro _
  dsimp only
  split
  · exact .pure _
  · exact .throw trivial

theorem composed_guid : Composed deep false guid :=
  (composed_fixedExtension 16 ExtensionCode.guid).mapped _

/-- Flags that no decimal number has make an invalid value. -/
theorem placeless_words (words : DecimalWords) : Placeless (Decimal.ofWords words) := by
  unfold Decimal.ofWords
  dsimp only
  split
  · exact .ok _
  · exact .error trivial

theorem composed_decimal : Composed deep false decimal :=
  (composed_fixedExtension 16 ExtensionCode.decimal).bind fun _ => .ofExcept (placeless_words _)

end Read

/-- Only a value of any shape is read by opening structures. -/
theorem Scalar.composed_read (type : Scalar) (shape : type = .value → deep = true) :
    Composed deep false type.read := by
  cases type with
  | unit => exact composed_nil.bind fun _ => .pure _
  | bool => exact composed_bool.mapped _
  | int range =>
      cases range with
      | usize => exact (composed_size .usize).mapped _
      | isize => exact (composed_size .isize).mapped _
      | _ => exact (composed_int _).mapped _
  | float32 => exact composed_float32.mapped _
  | float64 => exact composed_float64.mapped _
  | char => exact composed_char.mapped _
  | string => exact composed_string.mapped _
  | smallString => exact composed_string.mapped _
  | bytes => exact composed_binThen (fun _ => rfl) fun _ => .pure _
  | byteBuffer => exact composed_binThen (fun _ => rfl) fun _ => .pure _
  | value =>
      cases shape rfl
      exact Value.composed_read.mapped _
  | timestamp => exact composed_timestamp.mapped _
  | systemTime => exact composed_timestamp.mapped _
  | duration => exact composed_duration.mapped _
  | ipv4 => exact (composed_fixedBin 4 "Ipv4Addr").mapped _
  | ipv6 => exact (composed_fixedBin 16 "Ipv6Addr").mapped _
  | ip => exact composed_address.mapped _
  | socket => exact composed_socket
  | utcDateTime => exact composed_instant.mapped _
  | plainDateTime => exact composed_instant.mapped _
  | offsetDateTime => exact composed_zonedInstant.mapped _
  | date => exact composed_date.mapped _
  | time => exact composed_clockTime.mapped _
  | guid => exact composed_guid.mapped _
  | decimal => exact composed_decimal.mapped _

end MsgPack
