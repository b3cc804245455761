import MsgPack.Time.Timestamp
import MsgPack.Wire.Compact

/-!
# Writers

A writer is the bytes written so far; writing only ever appends to them.  What a write
appended before it failed stays written.  Only what carries a length or a count can fail,
namely when that number has more than 32 bits.
-/

namespace MsgPack

/-- The bytes written so far. -/
structure Writer where
  bytes : Array UInt8

namespace Writer

/-- A writer that has written nothing. -/
def empty : Writer := ⟨#[]⟩

/-- The bytes written so far, as a list. -/
def toList (writer : Writer) : Bytes :=
  writer.bytes.toList

/-- How many bytes have been written. -/
def position (writer : Writer) : Nat :=
  writer.bytes.size

/-- A writer with more bytes written. -/
def append (writer : Writer) (bytes : Bytes) : Writer :=
  ⟨writer.bytes ++ bytes⟩

@[simp]
theorem toList_empty : empty.toList = [] := rfl

@[simp]
theorem toList_append (writer : Writer) (bytes : Bytes) :
    (writer.append bytes).toList = writer.toList ++ bytes := by
  simp [append, toList]

end Writer

/-- A computation that writes.  It leaves a writer behind also when it fails. -/
abbrev Write := EStateM Error Writer

namespace Write

/-- Appends bytes. -/
def emit (bytes : Bytes) : Write Unit := fun writer =>
  .ok () (writer.append bytes)

/-- Appends a header for a length or a count, if that has at most 32 bits. -/
def header (what : String) (encode : Nat → Bytes) (length : Nat) : Write Unit :=
  if length < 0x100000000 then emit (encode length)
  else throw (.unwritable (.length what length))

/-! ## Values without a length -/

/-- Writes nil. -/
def nil : Write Unit :=
  emit [Format.nil.code]

/-- Writes a truth value. -/
def bool (truth : Bool) : Write Unit :=
  emit [if truth then Format.true.code else Format.false.code]

/-- Writes an integer in its shortest form. -/
def int (number : Int) : Write Unit :=
  emit (compactInteger number)

/-- Writes an integer in a given form. -/
def intAs (form : IntegerForm) (number : Int) : Write Unit :=
  emit (form.encode number)

/-- Writes a single; it is never narrowed further or turned into an integer. -/
def float32 (bits : UInt32) : Write Unit :=
  emit (Format.float32.code :: BigEndian.encode 4 bits.toNat)

/-- Writes a double; it is never narrowed or turned into an integer. -/
def float64 (bits : UInt64) : Write Unit :=
  emit (Format.float64.code :: BigEndian.encode 8 bits.toNat)

/-! ## Values with a length -/

/-- Writes the header of a string. -/
def strHeader (length : Nat) : Write Unit :=
  header "str" MsgPack.strHeader length

/-- Writes text. -/
def str (text : String) : Write Unit := do
  let bytes := Utf8.encode text
  strHeader bytes.length
  emit bytes

/-- Writes text with a length of four bytes, however short it is. -/
def str32 (text : String) : Write Unit := do
  let bytes := Utf8.encode text
  header "str" (sizedHeader .str32 .four) bytes.length
  emit bytes

/-- Writes the header of binary data. -/
def binHeader (length : Nat) : Write Unit :=
  header "bin" MsgPack.binHeader length

/-- Writes binary data. -/
def bin (bytes : Bytes) : Write Unit := do
  binHeader bytes.length
  emit bytes

/-- Writes the header of an array; `count` values must follow. -/
def arrayHeader (count : Nat) : Write Unit :=
  header "array" MsgPack.arrayHeader count

/-- Writes the header of a map; `count` pairs of values must follow. -/
def mapHeader (count : Nat) : Write Unit :=
  header "map" MsgPack.mapHeader count

/-- Writes the header of an extension; a payload of that length must follow. -/
def extensionHeader (typeCode : Int8) (length : Nat) : Write Unit :=
  header "ext" (MsgPack.extensionHeader typeCode) length

/-- Writes an extension. -/
def extension (typeCode : Int8) (payload : Bytes) : Write Unit := do
  extensionHeader typeCode payload.length
  emit payload

/-- Writes a timestamp in its shortest form. -/
def timestamp (timestamp : Timestamp) : Write Unit :=
  extension ExtensionCode.timestamp timestamp.payload

/-- Writes a timestamp with its offset from UTC in minutes. -/
def dateTimeOffset (timestamp : Timestamp) (minutes : Int16) : Write Unit :=
  extension ExtensionCode.dateTimeOffset
    (timestamp.payload ++ BigEndian.encodeSigned 2 minutes.toInt)

/-! ## Headers without a choice -/

/-- Writes the code that holds a small count itself. -/
def fixedHeader (format : Format) (count : UInt8) : Write Unit :=
  emit [format.code ||| count]

/-- Writes the header of an array with a count of four bytes. -/
def arrayHeader32 (count : UInt32) : Write Unit :=
  emit (sizedHeader .array32 .four count.toNat)

/-- Writes the header of a map with a count of four bytes. -/
def mapHeader32 (count : UInt32) : Write Unit :=
  emit (sizedHeader .map32 .four count.toNat)

/-- Runs a computation that writes, from an empty writer. -/
def run (write : Write Unit) : Except Error Bytes :=
  match write .empty with
  | .ok () writer => .ok writer.toList
  | .error failure _ => .error failure

end Write

end MsgPack
