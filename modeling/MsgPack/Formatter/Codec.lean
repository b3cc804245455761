import MsgPack.Datum.Scalar
import MsgPack.Formatter.Basic

/-!
# Codecs

Ways to write and read a scalar type other than the one that follows from its description.
All of them read what the usual formatter writes, and what they write is read by it.
-/

namespace MsgPack

namespace IntRange

/-- The form with the width of the range. -/
def form : IntRange → IntegerForm
  | u8 => .unsigned .one
  | u16 => .unsigned .two
  | u32 => .unsigned .four
  | u64 | usize => .unsigned .eight
  | i8 => .signed .one
  | i16 => .signed .two
  | i32 => .signed .four
  | i64 | isize => .signed .eight

end IntRange

namespace Codec

/-- A codec for values of a scalar type. -/
def ofScalar (type : Scalar) (write : Atom → Write Unit) (read : Read Atom) : Codec where
  write
    | .atom content => write content
    | _ => throw (.unwritable (.anotherType type.typeName))
  read := return .atom (← read)

/-- The usual way to write and read a scalar type. -/
def usual (type : Scalar) : Codec :=
  ofScalar type type.write type.read

/-- Integers that always take the width of their range. -/
def forced (range : IntRange) : Codec :=
  ofScalar (.int range)
    (fun
      | .int number => Write.intAs range.form number
      | _ => throw (.unwritable (.anotherType range.name)))
    (Scalar.int range).read

/-- Text whose length always takes four bytes. -/
def forcedString : Codec :=
  ofScalar .string
    (fun
      | .text content => Write.str32 content
      | _ => throw (.unwritable (.anotherType Scalar.string.typeName)))
    Scalar.string.read

/-- Identifiers, copied as their fields lie in memory. -/
def guidImage : Codec :=
  ofScalar .guid
    (fun
      | .bytes content => Write.extension ExtensionCode.guid (GuidFields.ofBytes content).image
      | _ => throw (.unwritable (.anotherType Scalar.guid.typeName)))
    do
      let payload ← Read.fixedExtension 16 ExtensionCode.guid
      return .bytes (GuidFields.ofImage payload).toBytes

/-- Decimal numbers, copied as their words lie in memory. -/
def decimalImage : Codec :=
  ofScalar .decimal
    (fun
      | .decimal number => Write.extension ExtensionCode.decimal number.image
      | _ => throw (.unwritable (.anotherType Scalar.decimal.typeName)))
    do
      let payload ← Read.fixedExtension 16 ExtensionCode.decimal
      return .decimal (← Read.ofExcept (Decimal.ofImage payload))

/-! ## By name -/

/-- The codecs that have a name, each with its type. -/
def named : List (String × Scalar × Codec) :=
  [("ForceU8", .int .u8, forced .u8), ("ForceU16", .int .u16, forced .u16),
    ("ForceU32", .int .u32, forced .u32), ("ForceU64", .int .u64, forced .u64),
    ("ForceI8", .int .i8, forced .i8), ("ForceI16", .int .i16, forced .i16),
    ("ForceI32", .int .i32, forced .i32), ("ForceI64", .int .i64, forced .i64),
    ("ForceStr32", .string, forcedString), ("String", .string, usual .string),
    ("U32", .int .u32, usual (.int .u32)), ("UnsafeGuid", .guid, guidImage),
    ("Guid", .guid, usual .guid), ("UnsafeDecimal", .decimal, decimalImage),
    ("Decimal", .decimal, usual .decimal)]

end Codec

end MsgPack
