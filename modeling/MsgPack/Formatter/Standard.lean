import MsgPack.Formatter.Decode
import MsgPack.Formatter.Encode

/-!
# Serializing and deserializing

Typed data as bytes, and bytes as typed data, with the formatters that the types bring
themselves.  Reading stops after the value; what follows it stays unread.
-/

namespace MsgPack

/-- Reads a value of a type. -/
def Read.datum (catalog : Catalog) (type : Schema) : Read Datum :=
  Session.withMemory () (Decode.value (.standard catalog) catalog type)

/-- Writes a value of a type. -/
def Write.datum (catalog : Catalog) (type : Schema) (content : Datum) : Write Unit :=
  Session.withMemory () (Encode.value (.standard catalog) catalog type content)

/-- The bytes of a value of a type. -/
def serialize (catalog : Catalog) (type : Schema) (content : Datum) : Except Error Bytes :=
  Write.run (Write.datum catalog type content)

/-- The value of a type at the start of some bytes. -/
def deserialize (catalog : Catalog) (type : Schema) (bytes : Bytes) : Except Error Datum :=
  match Read.datum catalog type (.ofBytes bytes) with
  | .ok content _ => .ok content
  | .error failure _ => .error failure

end MsgPack
