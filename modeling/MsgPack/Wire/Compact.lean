import MsgPack.Error

/-!
# Headers and integers as bytes

The bytes of an integer in any form that can hold it, and the bytes of headers.  Of several
forms the shortest is chosen: an integer that is not negative is always written unsigned,
and a length goes into the code when it fits there.
-/

namespace MsgPack

/-! ## Integers -/

namespace IntegerForm

/-- The format that an integer form belongs to. -/
def format : IntegerForm → Format
  | .positiveFix => .positiveFixInt
  | .negativeFix => .negativeFixInt
  | .unsigned .one => .uint8
  | .unsigned .two => .uint16
  | .unsigned .four => .uint32
  | .unsigned .eight => .uint64
  | .signed .one => .int8
  | .signed .two => .int16
  | .signed .four => .int32
  | .signed .eight => .int64

/-- The format of a form has that form. -/
@[simp]
theorem integer?_format (form : IntegerForm) : form.format.integer? = some form := by
  cases form with
  | positiveFix => rfl
  | negativeFix => rfl
  | unsigned width => cases width <;> rfl
  | signed width => cases width <;> rfl

/-- The shortest form that holds an integer of 64 bits. -/
def shortest (number : Int) : IntegerForm :=
  if 0 ≤ number then
    if number < 0x80 then .positiveFix
    else if number < 0x100 then .unsigned .one
    else if number < 0x10000 then .unsigned .two
    else if number < 0x100000000 then .unsigned .four
    else .unsigned .eight
  else if -0x20 ≤ number then .negativeFix
  else if -0x80 ≤ number then .signed .one
  else if -0x8000 ≤ number then .signed .two
  else if -0x80000000 ≤ number then .signed .four
  else .signed .eight

/-- The bytes of an integer in a form that holds it. -/
def encode (form : IntegerForm) (number : Int) : Bytes :=
  match form with
  | .positiveFix | .negativeFix => BigEndian.encodeSigned 1 number
  | .unsigned width | .signed width =>
      form.format.code :: BigEndian.encodeSigned width.bytes number

end IntegerForm

/-- The bytes of an integer in its shortest form. -/
def compactInteger (number : Int) : Bytes :=
  (IntegerForm.shortest number).encode number

/-! ## Headers -/

/-- A code that a length or a count of the given width follows. -/
def sizedHeader (format : Format) (width : Width) (length : Nat) : Bytes :=
  format.code :: BigEndian.encode width.bytes length

/-- A code that holds a length or a count itself. -/
def fixedHeader (format : Format) (length : Nat) : Bytes :=
  [format.code + UInt8.ofNat length]

/-- The shortest header of a string. -/
def strHeader (length : Nat) : Bytes :=
  if length < 0x20 then fixedHeader .fixStr length
  else if length < 0x100 then sizedHeader .str8 .one length
  else if length < 0x10000 then sizedHeader .str16 .two length
  else sizedHeader .str32 .four length

/-- The shortest header of binary data. -/
def binHeader (length : Nat) : Bytes :=
  if length < 0x100 then sizedHeader .bin8 .one length
  else if length < 0x10000 then sizedHeader .bin16 .two length
  else sizedHeader .bin32 .four length

/-- The shortest header of an array. -/
def arrayHeader (count : Nat) : Bytes :=
  if count < 0x10 then fixedHeader .fixArray count
  else if count < 0x10000 then sizedHeader .array16 .two count
  else sizedHeader .array32 .four count

/-- The shortest header of a map. -/
def mapHeader (count : Nat) : Bytes :=
  if count < 0x10 then fixedHeader .fixMap count
  else if count < 0x10000 then sizedHeader .map16 .two count
  else sizedHeader .map32 .four count

/-- The format that fixes the payload length of an extension, where there is one. -/
def fixedExtensionFormat? : Nat → Option Format
  | 1 => some .fixExt1
  | 2 => some .fixExt2
  | 4 => some .fixExt4
  | 8 => some .fixExt8
  | 16 => some .fixExt16
  | _ => none

/-- The shortest header of an extension. -/
def extensionHeader (typeCode : Int8) (length : Nat) : Bytes :=
  let start :=
    match fixedExtensionFormat? length with
    | some format => [format.code]
    | none =>
        if length < 0x100 then sizedHeader .ext8 .one length
        else if length < 0x10000 then sizedHeader .ext16 .two length
        else sizedHeader .ext32 .four length
  start ++ [typeCode.toUInt8]

end MsgPack
