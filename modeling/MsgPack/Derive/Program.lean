import MsgPack.Derive.Item

/-!
# The programs of a formatter

A type is written and read by two programs, which follow from its layout.  A program consists of a
few kinds of statements, so that what it does can be said and not only how it is spelled.

While fields are read, each has a slot, known by the place of the field among all fields, which
holds the value once it is read.  Fields that are never written have no slot.
-/

namespace MsgPack.Derive

/-- The fields that are written, with their places among all fields. -/
def writtenFields (fields : List (Field Code)) : List (Field Code × Nat) :=
  fields.zipIdx.filter fun placed => !placed.1.skip

/-- A variant by its identifier, and its number among the variants. -/
structure VariantName where
  identifier : String
  index : Nat

/-! ## Reading -/

/-- A value that is read into the slot of a field. -/
structure Target where
  place : Nat
  type : Code

/-- A statement inside a structure, whose items or entries are counted. -/
inductive InnerStatement where
  /-- Reads a value if the structure has more items than stand before it. -/
  | item (before : Nat) (target : Target)
  /-- Skips the items that stand behind so many. -/
  | skipFrom (before : Nat)
  /-- Reads the key of each entry and then the value for it, or skips the value of an entry with
  a key for which there is none. -/
  | entries (arms : List (String × Target))

/-- A statement of a program that reads. -/
inductive ReadStatement where
  /-- Reads the header of an array and keeps the count. -/
  | arrayCount
  /-- Reads the header of a map and keeps the count. -/
  | mapCount
  /-- Fails if the count is not the expected one. -/
  | expectCount (typeName : String) (expected : Nat)
  /-- Makes an empty slot. -/
  | declare (target : Target)
  /-- Reads the inside of the structure. -/
  | nested (body : List InnerStatement)

/-- How the value of a field is made from its slot. -/
inductive FieldValue where
  /-- The initial value of its type, whatever was read. -/
  | initial (type : Code)
  /-- What was read, or the initial value of its type. -/
  | orInitial (target : Target)
  /-- What was read, which may not be missing. -/
  | required (place : Nat) (key typeName : String)

/-- How the fields of a record or of a variant are read: the statements, and then the value of each
member. -/
structure FieldReading where
  statements : List ReadStatement
  values : List (String × FieldValue)

/-- A program that reads. -/
inductive ReadProgram where
  | unit
  | record (fields : FieldReading)
  | byIndex (arms : List (Nat × VariantName))
  | byName (arms : List (String × VariantName))
  | tagged (arms : List (Nat × VariantName × Option FieldReading))

/-- The slot of a field. -/
def target (placed : Field Code × Nat) : Target :=
  ⟨placed.2, placed.1.type⟩

/-- The value of a field from its slot. -/
def fieldValue (typeName : String) (placed : Field Code × Nat) : String × FieldValue :=
  (placed.1.member,
    if placed.1.skip then .initial placed.1.type
    else if placed.1.lenient then .orInitial (target placed)
    else .required placed.2 placed.1.key typeName)

/-- Makes the slots of fields. -/
def declarations (fields : List (Field Code)) : List ReadStatement :=
  ((writtenFields fields).map target).map .declare

/-- Reads fields from an array.  A strict array has exactly as many items as there are
fields. -/
def readArray (fields : List (Field Code)) (typeName : String) (strict : Bool) : FieldReading :=
  let written := writtenFields fields
  let check := if strict then [ReadStatement.expectCount typeName written.length] else []
  let items := written.zipIdx.map fun numbered => .item numbered.2 (target numbered.1)
  { statements := .arrayCount :: (check ++ (declarations fields ++
      [.nested (items ++ [.skipFrom written.length])]))
    values := fields.zipIdx.map (fieldValue typeName) }

/-- Reads fields from a map. -/
def readMap (fields : List (Field Code)) (typeName : String) : FieldReading :=
  let arms := (writtenFields fields).map fun placed => (placed.1.key, target placed)
  { statements := .mapCount :: (declarations fields ++ [.nested [.entries arms]])
    values := fields.zipIdx.map (fieldValue typeName) }

/-- The variants with their numbers. -/
def numberedVariants (variants : List (Variant Code)) : List (Variant Code × VariantName) :=
  variants.zipIdx.map fun numbered => (numbered.1, ⟨numbered.1.identifier, numbered.2⟩)

/-- The program that reads a type of a name by its layout. -/
def readProgram (name : String) : Layout Code → ReadProgram
  | .unit => .unit
  | .array fields => .record (readArray fields name false)
  | .map fields => .record (readMap fields name)
  | .byIndex variants =>
      .byIndex ((numberedVariants variants).map fun numbered => (numbered.2.index, numbered.2))
  | .byName variants =>
      .byName ((numberedVariants variants).map fun numbered => (numbered.1.name, numbered.2))
  | .tagged variants =>
      .tagged ((numberedVariants variants).map fun numbered =>
        (numbered.2.index, numbered.2, numbered.1.fields.map fun fields =>
          readArray fields (numbered.1.qualifiedName name) true))

/-! ## Writing -/

/-- Where the value of a field is found, whose place is known. -/
inductive Access where
  /-- In a member of the record. -/
  | member (name : String) (place : Nat)
  /-- Under a name that is given to it where the variant is recognized. -/
  | binding (place : Nat)

/-- A statement of a program that writes. -/
inductive WriteStatement where
  | arrayHeader (count : Nat)
  | mapHeader (count : Nat)
  | key (content : String)
  | value (type : Code) (access : Access)

/-- How the fields of a variant are written: the members to which names are given, with their
places, and the statements. -/
structure PayloadWriting where
  bindings : List (String × Nat)
  statements : List WriteStatement

/-- A program that writes. -/
inductive WriteProgram where
  | unit
  | record (statements : List WriteStatement)
  | byIndex (arms : List (VariantName × Nat))
  | byName (arms : List (VariantName × String))
  | tagged (arms : List (VariantName × Nat × Option PayloadWriting))

/-- The value of a field of a record. -/
def fieldOfValue (placed : Field Code × Nat) : Access :=
  .member placed.1.member placed.2

/-- Writes fields as an array. -/
def writeArray (fields : List (Field Code)) (access : Field Code × Nat → Access) :
    List WriteStatement :=
  let written := writtenFields fields
  .arrayHeader written.length :: written.map fun placed => .value placed.1.type (access placed)

/-- Writes fields as a map. -/
def writeMap (fields : List (Field Code)) : List WriteStatement :=
  let written := writtenFields fields
  .mapHeader written.length :: written.flatMap fun placed =>
    [.key placed.1.key, .value placed.1.type (fieldOfValue placed)]

/-- Writes the fields of a variant. -/
def writePayload (fields : List (Field Code)) : PayloadWriting where
  bindings := (writtenFields fields).map fun placed => (placed.1.member, placed.2)
  statements := writeArray fields fun placed => .binding placed.2

/-- The program that writes a type by its layout. -/
def writeProgram : Layout Code → WriteProgram
  | .unit => .unit
  | .array fields => .record (writeArray fields fieldOfValue)
  | .map fields => .record (writeMap fields)
  | .byIndex variants =>
      .byIndex ((numberedVariants variants).map fun numbered => (numbered.2, numbered.2.index))
  | .byName variants =>
      .byName ((numberedVariants variants).map fun numbered => (numbered.2, numbered.1.name))
  | .tagged variants =>
      .tagged ((numberedVariants variants).map fun numbered =>
        (numbered.2, numbered.2.index, numbered.1.fields.map writePayload))

end MsgPack.Derive
