import MsgPack.Float.Binary
import MsgPack.Reader.Basic
import MsgPack.Time.Timestamp

/-!
# Reading single values

Every read looks at the next code and takes the form that its format has for the kind of
value wanted.  A code without such a form fails with nothing consumed.  A number of eight
bytes is read after its code; all shorter numbers are read together with it, so that
nothing is consumed when they are cut off.

An array or a map announces how many values follow.  Since every value has at least one
byte, a count beyond the unread bytes is refused at once.
-/

namespace MsgPack.Read

/-! ## Inspection -/

/-- The next code. -/
def peekCode : Read UInt8 :=
  peek Cursor.peekByte

/-- The format of the next value. -/
def peekFormat : Read Format := do
  return Format.ofCode (← peekCode)

/-- The kind of the next value. -/
def peekKind : Read Kind := do
  return (← peekFormat).kind

/-- Whether the next value is nil. -/
def peekIsNil : Read Bool := do
  return decide ((← peekFormat) = .nil)

/-! ## Bytes -/

/-- Moves over the next byte. -/
def skipByte : Read Unit :=
  take fun cursor => .ok ((), cursor.skipByte)

/-- Moves over bytes. -/
def advance (count : Nat) : Read Unit :=
  take fun cursor => do
    let next ← cursor.advance count
    return ((), next)

/-- Reads exactly `count` bytes. -/
def fixed (count : Nat) : Read Bytes :=
  take (·.readArray count)

/-- Reads `count` bytes, borrowing them where they lie in one segment. -/
def rawBytes (count : Nat) : Read (Fetched Bytes) :=
  take (·.readSlice count)

/-- Fails unless that many bytes are unread. -/
def ensure (needed : Nat) : Read Unit :=
  peek (·.ensure needed)

/-- The suffix of the given width after the code. -/
def suffix : Width → Read Bytes
  | .eight => do
      skipByte
      fixed 8
  | width => do
      let header ← fixed (1 + width.bytes)
      return header.tail

/-! ## Nil and truth values -/

/-- Reads nil. -/
def nil : Read Unit := do
  let code ← peekCode
  if Format.ofCode code = .nil then skipByte else throw (.invalidCode code .nil)

/-- Reads nil if it is next; says whether it was. -/
def tryNil : Read Bool := do
  if ← peekIsNil then
    skipByte
    return true
  else return false

/-- Reads a truth value. -/
def bool : Read Bool := do
  let code ← peekCode
  match (Format.ofCode code).boolean? with
  | some truth =>
      skipByte
      return truth
  | none => throw (.invalidCode code .bool)

/-! ## Integers -/

/-- Reads an integer of the given form, whose code is next. -/
def integerOf (code : UInt8) : IntegerForm → Read Integer
  | .positiveFix => do
      skipByte
      return .unsigned (UInt64.ofNat code.toNat)
  | .negativeFix => do
      skipByte
      return .signed (Int64.ofInt (BigEndian.decodeSigned [code]))
  | .unsigned width => do
      return .unsigned (UInt64.ofNat (BigEndian.decode (← suffix width)))
  | .signed width => do
      return .signed (Int64.ofInt (BigEndian.decodeSigned (← suffix width)))

/-- Reads an integer of any form. -/
def integerAs (expected : Expected) : Read Integer := do
  let code ← peekCode
  match (Format.ofCode code).integer? with
  | some form => integerOf code form
  | none => throw (.invalidCode code expected)

/-- Reads an integer of any form. -/
def integer : Read Integer :=
  integerAs .integer

/-- Fits an integer into a range. -/
def fit (integer : Integer) (range : IntRange) : Read Int :=
  match integer.fit? range with
  | some number => pure number
  | none => throw (.overflow integer.toInt range)

/-- Reads an integer of a range, in whatever form it is written. -/
def int (range : IntRange) : Read Int := do
  fit (← integerAs (.range range)) range

/-- Reads an integer that has the width of an address. -/
def size (range : IntRange) : Read Int := do
  fit (← integer) range

/-! ## Floating point numbers -/

/-- Reads a number as a single; doubles and integers are rounded. -/
def float32 : Read UInt32 := do
  let code ← peekCode
  match (Format.ofCode code).float? with
  | some .single => return UInt32.ofNat (BigEndian.decode (← suffix .four))
  | some .double => return Float.narrow (UInt64.ofNat (BigEndian.decode (← suffix .eight)))
  | some .integer => return Float.narrow (Float.doubleOfInt (← integer).toInt)
  | none => throw (.invalidCode code .float32)

/-- Reads a number as a double; singles widen and integers are rounded. -/
def float64 : Read UInt64 := do
  let code ← peekCode
  match (Format.ofCode code).float? with
  | some .single => return Float.widen (UInt32.ofNat (BigEndian.decode (← suffix .four)))
  | some .double => return UInt64.ofNat (BigEndian.decode (← suffix .eight))
  | some .integer => return Float.doubleOfInt (← integer).toInt
  | none => throw (.invalidCode code .float64)

/-! ## Headers -/

/-- Reads a length of the given form, whose code is next. -/
def lengthOf (code : UInt8) : LengthForm → Read Nat
  | .fixed mask => do
      skipByte
      return (code &&& mask).toNat
  | .sized width => do
      return BigEndian.decode (← suffix width)

/-- Reads the length from a header of one kind. -/
def lengthAs (form? : Format → Option LengthForm) (expected : Expected) : Read Nat := do
  let code ← peekCode
  match form? (Format.ofCode code) with
  | some form => lengthOf code form
  | none => throw (.invalidCode code expected)

/-- Reads the header of a string. -/
def strHeader : Read Nat :=
  lengthAs Format.string? .str

/-- Reads the header of binary data. -/
def binHeader : Read Nat :=
  lengthAs Format.binary? .bin

/-- Reads the header of an array: how many values follow. -/
def arrayHeader : Read Nat := do
  let count ← lengthAs Format.array? .array
  ensure count
  return count

/-- Reads the header of a map: how many pairs of values follow. -/
def mapHeader : Read Nat := do
  let count ← lengthAs Format.map? .map
  ensure (count * 2)
  return count

/-! ## Strings and binary data -/

/-- Reads text. -/
def str : Read (Fetched String) := do
  let length ← strHeader
  let bytes ← rawBytes length
  match Utf8.decode bytes.content with
  | .ok text => return ⟨text, bytes.borrowed⟩
  | .error failure => throw (.invalidUtf8 failure)

/-- Reads text to keep. -/
def string : Read String := do
  return (← str).content

/-- Reads a character, written as its scalar value. -/
def char : Read Char := do
  let scalar := (← int .u32).toNat
  if scalar.isValidChar then return Char.ofNat scalar
  else throw (.invalidValue (.charScalar scalar))

/-- Reads binary data. -/
def bin : Read (Fetched Bytes) := do
  rawBytes (← binHeader)

/-- Reads binary data that must have a certain length. -/
def fixedBin (length : Nat) (typeName : String) : Read Bytes := do
  let actual ← binHeader
  if actual = length then fixed length
  else throw (.invalidValue (.binaryLength typeName length actual))

/-! ## Extensions -/

/-- The type code of an extension and the length of its payload. -/
structure ExtensionHeader where
  typeCode : Int8
  length : Nat
  deriving DecidableEq

/-- The type code that a byte stands for. -/
def typeCodeOf (bytes : Bytes) : Int8 :=
  Int8.ofInt (BigEndian.decodeSigned bytes)

/-- Reads the header of an extension of the given form. -/
def extensionHeaderOf : ExtensionForm → Read ExtensionHeader
  | .fixed length => do
      let header ← fixed 2
      return ⟨typeCodeOf (header.drop 1), length⟩
  | .sized width => do
      let header ← fixed (2 + width.bytes)
      return ⟨typeCodeOf (header.drop (1 + width.bytes)),
        BigEndian.decode ((header.drop 1).take width.bytes)⟩

/-- Reads the header of an extension. -/
def extensionHeader : Read ExtensionHeader := do
  let code ← peekCode
  match (Format.ofCode code).extension? with
  | some form => extensionHeaderOf form
  | none => throw (.invalidCode code .ext)

/-- The header of an extension, which stays unread. -/
def peekExtensionHeader : Read ExtensionHeader := fun reader =>
  match extensionHeader reader with
  | .ok header _ => .ok header reader
  | .error failure _ => .error failure reader

/-- An extension: its type code and its payload. -/
structure Extension where
  typeCode : Int8
  payload : Fetched Bytes
  deriving DecidableEq

/-- Reads an extension of any type code. -/
def extension : Read Extension := do
  let header ← extensionHeader
  return ⟨header.typeCode, ← rawBytes header.length⟩

/-- Reads the header of an extension that must have a certain type code. -/
def extensionHeaderWith (expected : Int8) : Read ExtensionHeader := do
  let header ← extensionHeader
  if header.typeCode = expected then return header
  else throw (.extensionTypeMismatch expected header.typeCode)

/-- Reads the payload of an extension that must have a certain type code and length. -/
def fixedExtension (length : Nat) (typeCode : Int8) : Read Bytes := do
  let header ← extensionHeaderWith typeCode
  if header.length = length then fixed length
  else throw (.invalidValue (.extensionLength typeCode length header.length))

/-- Reads a timestamp. -/
def timestamp : Read Timestamp := do
  let header ← extensionHeaderWith ExtensionCode.timestamp
  if header.length = 4 ∨ header.length = 8 ∨ header.length = 12 then
    ofExcept (Timestamp.ofPayload (← fixed header.length))
  else throw (.invalidValue (.timestampPayload header.length))

/-- Reads a timestamp and its offset from UTC in minutes. -/
def dateTimeOffset : Read (Timestamp × Int16) := do
  let header ← extensionHeaderWith ExtensionCode.dateTimeOffset
  let payload := (← rawBytes header.length).content
  if payload.length = 6 ∨ payload.length = 10 ∨ payload.length = 14 then
    let split := payload.length - 2
    let timestamp ← ofExcept (Timestamp.ofPayload (payload.take split))
    return (timestamp, Int16.ofInt (BigEndian.decodeSigned (payload.drop split)))
  else throw (.invalidValue (.offsetPayload payload.length))

end MsgPack.Read
