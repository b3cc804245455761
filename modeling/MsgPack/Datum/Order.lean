import MsgPack.Datum.Basic

/-!
# The order of data

Sets and maps compare their keys.  The *sort key* of a datum is a list of whole numbers, and
data of one type stand in the order of their sort keys, a list before the lists that it
begins and otherwise by the first number that differs.  Here is the sort key that follows from
the parts of a datum, which are compared one after the other; a type may be given another
order.  Every part of a sort key says where it ends, so that the parts after it are compared
only between equal parts.

Decimal numbers compare by their value, whatever their scale, and instants regardless of the
offset of their clock.
-/

namespace MsgPack

/-- Numbers, each announced, and then an end. -/
def terminated (numbers : List Int) : List Int :=
  numbers.flatMap (fun number => [1, number]) ++ [0]

/-- Bytes as numbers. -/
def byteNumbers (bytes : Bytes) : List Int :=
  bytes.map fun byte => byte.toNat

/-- The sort key of a value of a scalar type. -/
def Atom.sortKey : Atom → List Int
  | .unit => []
  | .bool truth => [truth.toInt]
  | .int number => [number]
  | .float32 bits => [bits.toNat]
  | .float64 bits => [bits.toNat]
  | .char character => [character.toNat]
  | .text content => terminated (content.toList.map fun character => character.toNat)
  | .bytes content => terminated (byteNumbers content)
  | .value _ => []
  | .timestamp stamp => [stamp.seconds.toInt, stamp.nanoseconds]
  | .systemTime clock => [clock.seconds.toInt, clock.nanoseconds]
  | .duration span => [span.seconds.toNat, span.nanoseconds]
  | .address octets => (octets.length : Int) :: byteNumbers octets
  | .socket octets port flow scope =>
      (octets.length : Int) :: (byteNumbers octets ++ [(port : Int), (flow : Int), (scope : Int)])
  | .instant moment => [moment.seconds, moment.nanoseconds]
  | .zoned moment => [moment.instant.seconds, moment.instant.nanoseconds]
  | .date day => [day.year, day.month, day.day]
  | .time clock => [clock.seconds, clock.nanoseconds]
  | .decimal number => [number.units]

namespace Datum

mutual

/-- The sort key of a datum. -/
def sortKey : Datum → List Int
  | .atom content => content.sortKey
  | .none => [0]
  | .some item => 1 :: sortKey item
  | .list items => itemsKey items
  | .grid rows columns items => rows :: columns :: itemsKey items
  | .map entries => entriesKey entries
  | .record fields => fieldsKey fields
  | .variant index fields => index :: fieldsKey fields
  | .typeless _ content => sortKey content

/-- The sort keys of items, each announced, and then an end. -/
def itemsKey : List Datum → List Int
  | [] => [0]
  | item :: items => 1 :: sortKey item ++ itemsKey items

/-- The sort keys of entries, each announced, and then an end. -/
def entriesKey : List (Datum × Datum) → List Int
  | [] => [0]
  | (key, value) :: entries => 1 :: sortKey key ++ sortKey value ++ entriesKey entries

/-- The sort keys of fields, whose number the type fixes. -/
def fieldsKey : List Datum → List Int
  | [] => []
  | field :: fields => sortKey field ++ fieldsKey fields

end

end Datum

end MsgPack
