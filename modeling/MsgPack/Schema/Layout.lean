/-!
# Layouts of records and choices

How a record or a choice between variants is laid out on the wire, whatever its fields hold:
the type of the fields is a parameter, so that a layout serves both for reading and writing
values and for printing code that does so.

A record is nil, an array of its fields, or a map from keys to them.  A choice between
variants without fields is the number or the name of the variant; one where variants have
fields is a pair of the number and a payload.
-/

namespace MsgPack

/-- A field of a record or a variant. -/
structure Field (τ : Type) where
  /-- The name by which the field is selected: an identifier, or a number in a record without
  names. -/
  member : String
  /-- The name of the field in maps and reports. -/
  key : String
  type : τ
  /-- Whether the field is never written. -/
  skip : Bool
  /-- Whether the field may be missing. -/
  lenient : Bool
  deriving DecidableEq

/-- One of the variants of a choice. -/
structure Variant (τ : Type) where
  identifier : String
  /-- The name of the variant on the wire and in reports. -/
  name : String
  /-- The fields; `none` for a variant without payload. -/
  fields : Option (List (Field τ))
  deriving DecidableEq

/-- A layout. -/
inductive Layout (τ : Type) where
  /-- A record without fields, written as nil. -/
  | unit
  /-- A record written as an array. -/
  | array (fields : List (Field τ))
  /-- A record written as a map. -/
  | map (fields : List (Field τ))
  /-- A choice written as the number of the variant. -/
  | byIndex (variants : List (Variant τ))
  /-- A choice written as the name of the variant. -/
  | byName (variants : List (Variant τ))
  /-- A choice written as the number of the variant and its payload. -/
  | tagged (variants : List (Variant τ))
  deriving DecidableEq

/-- A type defined by its layout. -/
structure Definition (τ : Type) where
  name : String
  layout : Layout τ
  deriving DecidableEq

/-- The fields that are written. -/
def Field.written {τ : Type} (fields : List (Field τ)) : List (Field τ) :=
  fields.filter fun field => !field.skip

namespace Layout

/-- The fields of a record. -/
def record? {τ : Type} : Layout τ → Option (List (Field τ))
  | unit => some []
  | array fields | map fields => some fields
  | byIndex _ | byName _ | tagged _ => none

/-- The variants of a choice. -/
def variants {τ : Type} : Layout τ → List (Variant τ)
  | byIndex variants | byName variants | tagged variants => variants
  | _ => []

/-- The fields of a record, or of a variant of a choice. -/
def fields {τ : Type} (layout : Layout τ) (index : Nat) : List (Field τ) :=
  match layout with
  | array fields | map fields => fields
  | other => (other.variants[index]?.bind Variant.fields).getD []

end Layout

/-- The name of a variant's payload in reports. -/
def Variant.qualifiedName {τ : Type} (variant : Variant τ) (typeName : String) : String :=
  typeName ++ "::" ++ variant.name

/-! ## Changing the type of the fields -/

/-- The field with another type. -/
def Field.map {τ υ : Type} (convert : τ → υ) (field : Field τ) : Field υ :=
  { field with type := convert field.type }

/-- The variant with other field types. -/
def Variant.map {τ υ : Type} (convert : τ → υ) (variant : Variant τ) : Variant υ :=
  { variant with fields := variant.fields.map (List.map (Field.map convert)) }

/-- The layout with other field types. -/
def Layout.mapTypes {τ υ : Type} (convert : τ → υ) : Layout τ → Layout υ
  | unit => unit
  | array fields => array (fields.map (Field.map convert))
  | map fields => map (fields.map (Field.map convert))
  | byIndex variants => byIndex (variants.map (Variant.map convert))
  | byName variants => byName (variants.map (Variant.map convert))
  | tagged variants => tagged (variants.map (Variant.map convert))

end MsgPack
