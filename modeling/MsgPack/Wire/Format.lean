/-!
# Formats of the wire

The first byte of every encoded value, its code, fixes the format of the value.  Some
formats own a range of codes and keep a small number or a length in the low bits; every
other format owns one code, which a big-endian suffix may follow.  This file names the
formats, reads a code as its format, and sorts the formats into the kinds of value they
carry.  For each kind the *forms* say how the rest of the header is laid out; a format of
another kind has no form.
-/

namespace MsgPack

/-- The number of bytes of a big-endian suffix. -/
inductive Width where
  | one
  | two
  | four
  | eight
  deriving DecidableEq, Repr

/-- How many bytes a suffix of this width has. -/
def Width.bytes : Width → Nat
  | .one => 1
  | .two => 2
  | .four => 4
  | .eight => 8

/-- How many bits a suffix of this width has. -/
def Width.bits (width : Width) : Nat :=
  8 * width.bytes

/-- The broad kind of a value, known from its code alone. -/
inductive Kind where
  | unknown
  | integer
  | nil
  | boolean
  | float
  | string
  | binary
  | array
  | map
  | extension
  deriving DecidableEq, Repr

/-- The name of a kind in reports. -/
def Kind.name : Kind → String
  | .unknown => "Unknown"
  | .integer => "Integer"
  | .nil => "Nil"
  | .boolean => "Boolean"
  | .float => "Float"
  | .string => "String"
  | .binary => "Binary"
  | .array => "Array"
  | .map => "Map"
  | .extension => "Extension"

/-- The formats of the wire.  The code `0xc1` belongs to `neverUsed`, which starts no value. -/
inductive Format where
  | positiveFixInt
  | fixMap
  | fixArray
  | fixStr
  | nil
  | neverUsed
  | false
  | true
  | bin8
  | bin16
  | bin32
  | ext8
  | ext16
  | ext32
  | float32
  | float64
  | uint8
  | uint16
  | uint32
  | uint64
  | int8
  | int16
  | int32
  | int64
  | fixExt1
  | fixExt2
  | fixExt4
  | fixExt8
  | fixExt16
  | str8
  | str16
  | str32
  | array16
  | array32
  | map16
  | map32
  | negativeFixInt
  deriving DecidableEq, Repr

namespace Format

/-- The smallest code of a format; the only one, unless the format owns a range. -/
def code : Format → UInt8
  | positiveFixInt => 0x00
  | fixMap => 0x80
  | fixArray => 0x90
  | fixStr => 0xa0
  | nil => 0xc0
  | neverUsed => 0xc1
  | false => 0xc2
  | true => 0xc3
  | bin8 => 0xc4
  | bin16 => 0xc5
  | bin32 => 0xc6
  | ext8 => 0xc7
  | ext16 => 0xc8
  | ext32 => 0xc9
  | float32 => 0xca
  | float64 => 0xcb
  | uint8 => 0xcc
  | uint16 => 0xcd
  | uint32 => 0xce
  | uint64 => 0xcf
  | int8 => 0xd0
  | int16 => 0xd1
  | int32 => 0xd2
  | int64 => 0xd3
  | fixExt1 => 0xd4
  | fixExt2 => 0xd5
  | fixExt4 => 0xd6
  | fixExt8 => 0xd7
  | fixExt16 => 0xd8
  | str8 => 0xd9
  | str16 => 0xda
  | str32 => 0xdb
  | array16 => 0xdc
  | array32 => 0xdd
  | map16 => 0xde
  | map32 => 0xdf
  | negativeFixInt => 0xe0

/-- The formats that own one code each, by the distance of that code from `0xc0`. -/
def ofSingle : UInt8 → Format
  | 0x00 => nil
  | 0x02 => false
  | 0x03 => true
  | 0x04 => bin8
  | 0x05 => bin16
  | 0x06 => bin32
  | 0x07 => ext8
  | 0x08 => ext16
  | 0x09 => ext32
  | 0x0a => float32
  | 0x0b => float64
  | 0x0c => uint8
  | 0x0d => uint16
  | 0x0e => uint32
  | 0x0f => uint64
  | 0x10 => int8
  | 0x11 => int16
  | 0x12 => int32
  | 0x13 => int64
  | 0x14 => fixExt1
  | 0x15 => fixExt2
  | 0x16 => fixExt4
  | 0x17 => fixExt8
  | 0x18 => fixExt16
  | 0x19 => str8
  | 0x1a => str16
  | 0x1b => str32
  | 0x1c => array16
  | 0x1d => array32
  | 0x1e => map16
  | 0x1f => map32
  | _ => neverUsed

/-- The format a code belongs to. -/
def ofCode (code : UInt8) : Format :=
  if code ≤ 0x7f then positiveFixInt
  else if code ≤ 0x8f then fixMap
  else if code ≤ 0x9f then fixArray
  else if code ≤ 0xbf then fixStr
  else if code ≤ 0xdf then ofSingle (code - 0xc0)
  else negativeFixInt

/-- The smallest code of a format is one of its codes. -/
@[simp]
theorem ofCode_code (format : Format) : ofCode format.code = format := by
  cases format <;> rfl

/-- The name of a format in reports. -/
def name : Format → String
  | positiveFixInt => "PositiveFixInt"
  | fixMap => "FixMap"
  | fixArray => "FixArray"
  | fixStr => "FixStr"
  | nil => "Nil"
  | neverUsed => "NeverUsed"
  | false => "False"
  | true => "True"
  | bin8 => "Bin8"
  | bin16 => "Bin16"
  | bin32 => "Bin32"
  | ext8 => "Ext8"
  | ext16 => "Ext16"
  | ext32 => "Ext32"
  | float32 => "Float32"
  | float64 => "Float64"
  | uint8 => "UInt8"
  | uint16 => "UInt16"
  | uint32 => "UInt32"
  | uint64 => "UInt64"
  | int8 => "Int8"
  | int16 => "Int16"
  | int32 => "Int32"
  | int64 => "Int64"
  | fixExt1 => "FixExt1"
  | fixExt2 => "FixExt2"
  | fixExt4 => "FixExt4"
  | fixExt8 => "FixExt8"
  | fixExt16 => "FixExt16"
  | str8 => "Str8"
  | str16 => "Str16"
  | str32 => "Str32"
  | array16 => "Array16"
  | array32 => "Array32"
  | map16 => "Map16"
  | map32 => "Map32"
  | negativeFixInt => "NegativeFixInt"

/-- The kind of the values a format carries. -/
def kind : Format → Kind
  | positiveFixInt | negativeFixInt => .integer
  | uint8 | uint16 | uint32 | uint64 => .integer
  | int8 | int16 | int32 | int64 => .integer
  | fixMap | map16 | map32 => .map
  | fixArray | array16 | array32 => .array
  | fixStr | str8 | str16 | str32 => .string
  | nil => .nil
  | neverUsed => .unknown
  | false | true => .boolean
  | bin8 | bin16 | bin32 => .binary
  | ext8 | ext16 | ext32 => .extension
  | fixExt1 | fixExt2 | fixExt4 | fixExt8 | fixExt16 => .extension
  | float32 | float64 => .float

end Format

/-! ## Forms -/

/-- Where the value of an integer stands: in the code itself, or in a suffix. -/
inductive IntegerForm where
  | positiveFix
  | negativeFix
  | unsigned (width : Width)
  | signed (width : Width)
  deriving DecidableEq, Repr

/-- How a floating point number is written; an integer counts as one and widens. -/
inductive FloatForm where
  | single
  | double
  | integer
  deriving DecidableEq, Repr

/-- Where a length or a count stands: in the low bits of the code, or in a suffix. -/
inductive LengthForm where
  | fixed (mask : UInt8)
  | sized (width : Width)
  deriving DecidableEq, Repr

/-- Whether the format fixes the payload length of an extension, or a suffix holds it. -/
inductive ExtensionForm where
  | fixed (length : Nat)
  | sized (width : Width)
  deriving DecidableEq, Repr

namespace Format

/-- The form of an integer format. -/
def integer? : Format → Option IntegerForm
  | positiveFixInt => some .positiveFix
  | negativeFixInt => some .negativeFix
  | uint8 => some (.unsigned .one)
  | uint16 => some (.unsigned .two)
  | uint32 => some (.unsigned .four)
  | uint64 => some (.unsigned .eight)
  | int8 => some (.signed .one)
  | int16 => some (.signed .two)
  | int32 => some (.signed .four)
  | int64 => some (.signed .eight)
  | _ => none

/-- The form of a format that can be read as a floating point number. -/
def float? : Format → Option FloatForm
  | float32 => some .single
  | float64 => some .double
  | format => format.integer?.map fun _ => .integer

/-- The truth value that a format stands for. -/
def boolean? : Format → Option Bool
  | false => some Bool.false
  | true => some Bool.true
  | _ => none

/-- The form of a string header. -/
def string? : Format → Option LengthForm
  | fixStr => some (.fixed 0x1f)
  | str8 => some (.sized .one)
  | str16 => some (.sized .two)
  | str32 => some (.sized .four)
  | _ => none

/-- The form of a header of binary data. -/
def binary? : Format → Option LengthForm
  | bin8 => some (.sized .one)
  | bin16 => some (.sized .two)
  | bin32 => some (.sized .four)
  | _ => none

/-- The form of an array header. -/
def array? : Format → Option LengthForm
  | fixArray => some (.fixed 0x0f)
  | array16 => some (.sized .two)
  | array32 => some (.sized .four)
  | _ => none

/-- The form of a map header. -/
def map? : Format → Option LengthForm
  | fixMap => some (.fixed 0x0f)
  | map16 => some (.sized .two)
  | map32 => some (.sized .four)
  | _ => none

/-- The form of an extension header. -/
def extension? : Format → Option ExtensionForm
  | fixExt1 => some (.fixed 1)
  | fixExt2 => some (.fixed 2)
  | fixExt4 => some (.fixed 4)
  | fixExt8 => some (.fixed 8)
  | fixExt16 => some (.fixed 16)
  | ext8 => some (.sized .one)
  | ext16 => some (.sized .two)
  | ext32 => some (.sized .four)
  | _ => none

/-! ## Kinds and forms agree

A format has the form of a kind exactly when it carries values of that kind, so a reader
that has chosen by kind never meets a missing form. -/

theorem integer?_isSome (format : Format) : format.integer?.isSome ↔ format.kind = .integer := by
  cases format <;> simp [integer?, kind]

theorem boolean?_isSome (format : Format) : format.boolean?.isSome ↔ format.kind = .boolean := by
  cases format <;> simp [boolean?, kind]

theorem string?_isSome (format : Format) : format.string?.isSome ↔ format.kind = .string := by
  cases format <;> simp [string?, kind]

theorem binary?_isSome (format : Format) : format.binary?.isSome ↔ format.kind = .binary := by
  cases format <;> simp [binary?, kind]

theorem array?_isSome (format : Format) : format.array?.isSome ↔ format.kind = .array := by
  cases format <;> simp [array?, kind]

theorem map?_isSome (format : Format) : format.map?.isSome ↔ format.kind = .map := by
  cases format <;> simp [map?, kind]

theorem extension?_isSome (format : Format) :
    format.extension?.isSome ↔ format.kind = .extension := by
  cases format <;> simp [extension?, kind]

end Format

/-! ## Type codes of extensions -/

namespace ExtensionCode

/-- The code of timestamps, the only one the wire format itself defines. -/
def timestamp : Int8 := -1

/-- A code kept for compressed blocks. -/
def lz4 : Int8 := 99

/-- The code of values that carry the name of their type. -/
def typeless : Int8 := 100

/-- The code of timestamps with an offset from UTC in minutes. -/
def dateTimeOffset : Int8 := 101

/-- The code of globally unique identifiers. -/
def guid : Int8 := 102

/-- The code of decimal numbers. -/
def decimal : Int8 := 103

/-- The name of a code in reports; the codes from 0 up that have no other use belong to
the user, the negative ones are reserved. -/
def name (code : Int8) : String :=
  if code = timestamp then "Timestamp"
  else if code = lz4 then "Lz4"
  else if code = typeless then "Typeless"
  else if code = dateTimeOffset then "DateTimeOffset"
  else if code = guid then "Guid"
  else if code = decimal then "Decimal"
  else if 0 ≤ code then "User"
  else "Reserved"

end ExtensionCode

end MsgPack
