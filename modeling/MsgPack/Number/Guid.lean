import MsgPack.Wire.Memory

/-!
# Globally unique identifiers

Sixteen bytes that are usually written as five groups.  The payload on the wire keeps the
record of four fields that the groups come from: a word of four bytes and two of two bytes,
each with its least significant byte first, and eight single bytes.  The record is written
field by field, or copied as it lies in memory.
-/

namespace MsgPack

/-- The fields of an identifier. -/
structure GuidFields where
  first : Nat
  second : Nat
  third : Nat
  rest : Bytes

namespace GuidFields

/-- The fields of the sixteen bytes in their usual order. -/
def ofBytes (bytes : Bytes) : GuidFields :=
  { first := BigEndian.decode (bytes.take 4)
    second := BigEndian.decode ((bytes.drop 4).take 2)
    third := BigEndian.decode ((bytes.drop 6).take 2)
    rest := bytes.drop 8 }

/-- The sixteen bytes in their usual order. -/
def toBytes (fields : GuidFields) : Bytes :=
  BigEndian.encode 4 fields.first ++ BigEndian.encode 2 fields.second
    ++ BigEndian.encode 2 fields.third ++ fields.rest

/-! ## Field by field -/

/-- The payload, each field written on its own. -/
def payload (fields : GuidFields) : Bytes :=
  (BigEndian.encode 4 fields.first).reverse ++ (BigEndian.encode 2 fields.second).reverse
    ++ (BigEndian.encode 2 fields.third).reverse ++ fields.rest

/-- The fields of a payload, each read on its own. -/
def ofPayload (payload : Bytes) : GuidFields :=
  { first := BigEndian.decode (payload.take 4).reverse
    second := BigEndian.decode ((payload.drop 4).take 2).reverse
    third := BigEndian.decode ((payload.drop 6).take 2).reverse
    rest := payload.drop 8 }

/-! ## As a record in memory -/

/-- The record as it lies in memory. -/
def image (fields : GuidFields) : Bytes :=
  Memory.image 4 fields.first ++ Memory.image 2 fields.second ++ Memory.image 2 fields.third
    ++ fields.rest

/-- The record that lies in memory as these bytes. -/
def ofImage (bytes : Bytes) : GuidFields :=
  { first := Memory.word (bytes.take 4)
    second := Memory.word ((bytes.drop 4).take 2)
    third := Memory.word ((bytes.drop 6).take 2)
    rest := bytes.drop 8 }

end GuidFields

end MsgPack
