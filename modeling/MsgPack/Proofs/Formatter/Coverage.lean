import MsgPack.Formatter.Standard
import MsgPack.Formatter.Typing
import MsgPack.Proofs.Datum.Scalar
import MsgPack.Value.Normal

/-!
# Types whose data come back

Not every datum is read as the one that was written: an option around something written as
nil comes back empty, an integer of a value of any shape loses its form, and a socket address
loses its flow label and its scope.  This file says which types and which data are free of that.

What is asked of a type is asked of every type that stands inside it, through definitions
and through fields that are written; what is asked of a datum is asked of every datum inside
it.  Both are relations between a part and a whole, so that what holds of the parts of a
whole holds of the parts of its parts.
-/

namespace MsgPack

/-! ## Types -/

/-- Whether the names that a layout goes by differ: the keys of the fields that a map holds,
and the names of variants that are written by name.  The number of a variant has 32 bits. -/
def Layout.Distinct {τ : Type} : Layout τ → Prop
  | .unit | .array _ => True
  | .map fields => ((Field.written fields).map Field.key).Nodup
  | .byName variants => (variants.map Variant.name).Nodup
  | .byIndex variants | .tagged variants => variants.length ≤ 0x100000000

/-- Whether a choice that is written without payload has no fields. -/
def Layout.Plain {τ : Type} : Layout τ → Prop
  | .byIndex variants | .byName variants => ∀ variant ∈ variants, variant.fields = none
  | _ => True

/-- The variants of such a choice have no fields, -/
theorem Variant.fields_eq_nil {τ : Type} {variants : List (Variant τ)}
    (plain : ∀ variant ∈ variants, variant.fields = none) (index : Nat) :
    (variants[index]?.bind Variant.fields).getD [] = [] := by
  cases shape : variants[index]? with
  | none => rfl
  | some variant =>
      rw [Option.bind_some, plain variant (List.mem_of_getElem? shape), Option.getD_none]

/-- and so there are no values of them. -/
theorem Variant.eq_nil_of_plain {τ : Type} {variants : List (Variant τ)} {values : List Datum}
    {index : Nat} (plain : ∀ variant ∈ variants, variant.fields = none)
    (whole : values.length = ((variants[index]?.bind Variant.fields).getD []).length) :
    values = [] :=
  List.eq_nil_of_length_eq_zero (whole.trans (congrArg List.length (fields_eq_nil plain index)))

/-- Whether the layout of a type tells its data apart. -/
structure Layout.Unambiguous {τ : Type} (layout : Layout τ) : Prop where
  distinct : layout.Distinct
  plain : layout.Plain

namespace Schema

variable {catalog : Catalog}

/-- Whether a type by itself is one whose data come back: a covered scalar type, a collection
with an order of its own, or a type that its definition describes. -/
def Listed (catalog : Catalog) : Schema → Prop
  | .scalar type => type.Covered
  | .typeless | .sequence .hashSet _ | .map .hash _ _ => False
  | .named name =>
      ∃ definition, catalog.definition? name = some definition ∧ definition.layout.Unambiguous
  | _ => True

/-- A type stands inside another one. -/
inductive Inside (catalog : Catalog) (inner : Schema) : Schema → Prop where
  | self : Inside catalog inner inner
  | option {item : Schema} (inside : Inside catalog inner item) :
      Inside catalog inner (.option item)
  | boxed {item : Schema} (inside : Inside catalog inner item) :
      Inside catalog inner (.boxed item)
  | shared {item : Schema} (inside : Inside catalog inner item) :
      Inside catalog inner (.shared item)
  | sequence {kind : SequenceKind} {item : Schema} (inside : Inside catalog inner item) :
      Inside catalog inner (.sequence kind item)
  | array {length : Nat} {item : Schema} (inside : Inside catalog inner item) :
      Inside catalog inner (.array length item)
  | grid {item : Schema} (inside : Inside catalog inner item) : Inside catalog inner (.grid item)
  | key {kind : MapKind} {key value : Schema} (inside : Inside catalog inner key) :
      Inside catalog inner (.map kind key value)
  | value {kind : MapKind} {key value : Schema} (inside : Inside catalog inner value) :
      Inside catalog inner (.map kind key value)
  | tuple {items : List Schema} {item : Schema} (member : item ∈ items)
      (inside : Inside catalog inner item) : Inside catalog inner (.tuple items)
  /-- A field of a record that is written. -/
  | record {name : String} {definition : Definition Schema} {fields : List (Field Schema)}
      {field : Field Schema} (defined : catalog.definition? name = some definition)
      (shape : definition.layout.record? = some fields) (member : field ∈ fields)
      (written : field.skip = false) (inside : Inside catalog inner field.type) :
      Inside catalog inner (.named name)
  /-- A field of a variant that is written. -/
  | variant {name : String} {definition : Definition Schema} {index : Nat}
      {chosen : Variant Schema} {field : Field Schema}
      (defined : catalog.definition? name = some definition)
      (shape : definition.layout.variants[index]? = some chosen)
      (member : field ∈ chosen.fields.getD []) (written : field.skip = false)
      (inside : Inside catalog inner field.type) : Inside catalog inner (.named name)

/-- Whether the data of a type come back, as far as the type is concerned. -/
def Covered (catalog : Catalog) (type : Schema) : Prop :=
  ∀ inner, Inside catalog inner type → inner.Listed catalog

namespace Covered

variable {type item : Schema}

/-- What is covered is so with all that stands inside it. -/
theorem part (covered : Covered catalog type)
    (through : ∀ inner, Inside catalog inner item → Inside catalog inner type) :
    Covered catalog item :=
  fun inner inside => covered inner (through inner inside)

theorem listed (covered : Covered catalog type) : type.Listed catalog :=
  covered type .self

end Covered

end Schema

/-! ## Data -/

namespace Datum

variable {catalog : Catalog}

/-- A datum of a type stands inside another one. -/
inductive Contains (catalog : Catalog) (part : Datum) (partType : Schema) :
    Datum → Schema → Prop where
  | self : Contains catalog part partType part partType
  | some {item : Datum} {type : Schema} (inside : Contains catalog part partType item type) :
      Contains catalog part partType (.some item) (.option type)
  | boxed {item : Datum} {type : Schema} (inside : Contains catalog part partType item type) :
      Contains catalog part partType item (.boxed type)
  | shared {item : Datum} {type : Schema} (inside : Contains catalog part partType item type) :
      Contains catalog part partType item (.shared type)
  | sequence {items : List Datum} {item : Datum} {kind : SequenceKind} {type : Schema}
      (member : item ∈ items) (inside : Contains catalog part partType item type) :
      Contains catalog part partType (.list items) (.sequence kind type)
  | array {items : List Datum} {item : Datum} {length : Nat} {type : Schema}
      (member : item ∈ items) (inside : Contains catalog part partType item type) :
      Contains catalog part partType (.list items) (.array length type)
  | grid {rows columns : Nat} {items : List Datum} {item : Datum} {type : Schema}
      (member : item ∈ items) (inside : Contains catalog part partType item type) :
      Contains catalog part partType (.grid rows columns items) (.grid type)
  | key {entries : List (Datum × Datum)} {entry : Datum × Datum} {kind : MapKind}
      {keyType valueType : Schema} (member : entry ∈ entries)
      (inside : Contains catalog part partType entry.1 keyType) :
      Contains catalog part partType (.map entries) (.map kind keyType valueType)
  | value {entries : List (Datum × Datum)} {entry : Datum × Datum} {kind : MapKind}
      {keyType valueType : Schema} (member : entry ∈ entries)
      (inside : Contains catalog part partType entry.2 valueType) :
      Contains catalog part partType (.map entries) (.map kind keyType valueType)
  | tuple {items : List Datum} {types : List Schema} {placed : Datum × Schema}
      (member : placed ∈ items.zip types)
      (inside : Contains catalog part partType placed.1 placed.2) :
      Contains catalog part partType (.list items) (.tuple types)
  /-- The value of a field of a record that is written. -/
  | record {name : String} {definition : Definition Schema} {fields : List (Field Schema)}
      {values : List Datum} {placed : Datum × Field Schema}
      (defined : catalog.definition? name = .some definition)
      (shape : definition.layout.record? = .some fields) (member : placed ∈ values.zip fields)
      (written : placed.2.skip = false)
      (inside : Contains catalog part partType placed.1 placed.2.type) :
      Contains catalog part partType (.record values) (.named name)
  /-- The value of a field of a variant that is written. -/
  | variant {name : String} {definition : Definition Schema} {index : Nat}
      {chosen : Variant Schema} {values : List Datum} {placed : Datum × Field Schema}
      (defined : catalog.definition? name = .some definition)
      (shape : definition.layout.variants[index]? = .some chosen)
      (member : placed ∈ values.zip (chosen.fields.getD []))
      (written : placed.2.skip = false)
      (inside : Contains catalog part partType placed.1 placed.2.type) :
      Contains catalog part partType (.variant index values) (.named name)

/-- Whether a datum contains nothing that the wire confuses with something else: no option
around what is written as nil, and no integer of a value of any shape that is signed without
being negative. -/
structure Clear (catalog : Catalog) (content : Datum) (type : Schema) : Prop where
  /-- No filled option reads as an empty one. -/
  options : ∀ item itemType, Contains catalog (.some item) (.option itemType) content type →
    serialize catalog itemType item ≠ .ok [Format.nil.code]
  /-- Values of any shape are normal. -/
  values : ∀ value, Contains catalog (.atom (.value value)) (.scalar .value) content type →
    value.normal = value

/-- What is clear is so with all that stands inside it. -/
theorem Clear.part {content item : Datum} {type itemType : Schema}
    (clear : Clear catalog content type)
    (through : ∀ part partType, Contains catalog part partType item itemType →
      Contains catalog part partType content type) : Clear catalog item itemType where
  options := fun inner innerType inside => clear.options inner innerType (through _ _ inside)
  values := fun value inside => clear.values value (through _ _ inside)

/-- Whether no socket address in a datum has a flow label or a scope, neither of which is
written. -/
def Unscoped (catalog : Catalog) (content : Datum) (type : Schema) : Prop :=
  ∀ octets port flow scope,
    Contains catalog (.atom (.socket octets port flow scope)) (.scalar .socket) content type →
      flow = 0 ∧ scope = 0

theorem Unscoped.part {content item : Datum} {type itemType : Schema}
    (unscoped : Unscoped catalog content type)
    (through : ∀ part partType, Contains catalog part partType item itemType →
      Contains catalog part partType content type) : Unscoped catalog item itemType :=
  fun octets port flow scope inside => unscoped octets port flow scope (through _ _ inside)

end Datum

end MsgPack
