import MsgPack.Collection.Sequence
import MsgPack.Formatter.Basic
import MsgPack.Proofs.Datum.Scalar

/-!
# Typed data as values

What a datum of a type is on the wire: the value that it is written as, its *image*, and the
datum that it is read as.  The two go by the structure of the datum and look at its type on
the way; wrappers around a type leave no trace in either.

Reading loses nothing but the fields that are never written, which take the initial value of
their type.  A set or a map is made anew from the items that were read, so that items which
differ in such fields alone fall together.
-/

namespace MsgPack

/-- The type without the wrappers around it. -/
def Schema.bare : Schema → Schema
  | .boxed item | .shared item => item.bare
  | type => type

/-! ## Defined types -/

/-- The image of a record, or of a variant of a choice, from the keys and the images of its
written fields. -/
def Layout.image (layout : Layout Schema) (index : Nat) (fields : List (String × Value)) :
    Value :=
  match layout with
  | .unit => .nil
  | .array _ => .array (fields.map Prod.snd)
  | .map _ => .map (fields.map fun field => (.string field.1, field.2))
  | .byIndex _ => .ofInt index
  | .byName variants => (variants[index]?.map fun chosen => Value.string chosen.name).getD .nil
  | .tagged variants =>
      match variants[index]?.bind Variant.fields with
      | none => .array [.ofInt index, .nil]
      | some _ => .array [.ofInt index, .array (fields.map Prod.snd)]

/-- The fields of a layout are those of a record, -/
theorem Layout.fields_eq_of_record {layout : Layout Schema} {fields : List (Field Schema)}
    (shape : layout.record? = some fields) (index : Nat) : layout.fields index = fields := by
  cases layout <;> cases shape <;> rfl

/-- or those of the variant with a number. -/
theorem Layout.fields_eq_of_variant {layout : Layout Schema} {index : Nat}
    {chosen : Variant Schema} (shape : layout.variants[index]? = some chosen) :
    layout.fields index = chosen.fields.getD [] := by
  cases layout with
  | unit => cases shape
  | array fields => cases shape
  | map fields => cases shape
  | _ => simp only [Layout.fields, shape, Option.bind_some]

namespace Catalog

/-- The layout of a defined type. -/
def layout? (catalog : Catalog) (type : Schema) : Option (Layout Schema) :=
  match type.bare with
  | .named name => (catalog.definition? name).map Definition.layout
  | _ => none

/-- The fields of a record, or of a variant of a choice. -/
def fields (catalog : Catalog) (type : Schema) (index : Nat) : List (Field Schema) :=
  ((catalog.layout? type).map (Layout.fields · index)).getD []

/-- The image of a value of a defined type. -/
def image (catalog : Catalog) (type : Schema) (index : Nat) (fields : List (String × Value)) :
    Value :=
  ((catalog.layout? type).map (Layout.image · index fields)).getD .nil

variable {catalog : Catalog} {name : String} {definition : Definition Schema}

theorem layout?_named (defined : catalog.definition? name = some definition) :
    catalog.layout? (.named name) = some definition.layout := by
  simp only [layout?, Schema.bare, defined, Option.map_some]

theorem fields_named (defined : catalog.definition? name = some definition) (index : Nat) :
    catalog.fields (.named name) index = definition.layout.fields index := by
  rw [fields, layout?_named defined, Option.map_some, Option.getD_some]

theorem image_named (defined : catalog.definition? name = some definition) (index : Nat)
    (fields : List (String × Value)) :
    catalog.image (.named name) index fields = definition.layout.image index fields := by
  rw [image, layout?_named defined, Option.map_some, Option.getD_some]

end Catalog

namespace Datum

variable {catalog : Catalog}

/-! ## Images -/

mutual

/-- The value that a datum of a type is written as. -/
def image (catalog : Catalog) : Datum → Schema → Value
  | .atom content, type =>
      match type.bare with
      | .scalar scalar => scalar.image content
      | _ => .nil
  | .none, _ => .nil
  | .some item, type =>
      match type.bare with
      | .option inner => image catalog item inner
      | _ => .nil
  | .list items, type =>
      match type.bare with
      | .sequence kind inner => .array (kind.elements (itemImages catalog items inner))
      | .array _ inner => .array (itemImages catalog items inner)
      | .tuple types => .array (placedImages catalog items types)
      | _ => .nil
  | .grid rows columns items, type =>
      match type.bare with
      | .grid inner => .array [.ofInt rows, .ofInt columns, .array (itemImages catalog items inner)]
      | _ => .nil
  | .map entries, type =>
      match type.bare with
      | .map _ keyType valueType => .map (entryImages catalog entries keyType valueType)
      | _ => .nil
  | .record values, type =>
      catalog.image type 0 (fieldImages catalog values (catalog.fields type 0))
  | .variant index values, type =>
      catalog.image type index (fieldImages catalog values (catalog.fields type index))
  | .typeless _ _, _ => .nil
termination_by structural content => content

/-- The images of items of one type. -/
def itemImages (catalog : Catalog) : List Datum → Schema → List Value
  | [], _ => []
  | item :: items, type => image catalog item type :: itemImages catalog items type

/-- The images of keys and values. -/
def entryImages (catalog : Catalog) :
    List (Datum × Datum) → Schema → Schema → List (Value × Value)
  | [], _, _ => []
  | (key, value) :: entries, keyType, valueType =>
      (image catalog key keyType, image catalog value valueType) ::
        entryImages catalog entries keyType valueType

/-- The images of items of given types. -/
def placedImages (catalog : Catalog) : List Datum → List Schema → List Value
  | item :: items, type :: types => image catalog item type :: placedImages catalog items types
  | _, _ => []

/-- The images of the fields that are written, each with its key. -/
def fieldImages (catalog : Catalog) :
    List Datum → List (Field Schema) → List (String × Value)
  | value :: values, field :: fields =>
      if field.skip then fieldImages catalog values fields
      else (field.key, image catalog value field.type) :: fieldImages catalog values fields
  | _, _ => []

end

theorem itemImages_eq_map (items : List Datum) (type : Schema) :
    itemImages catalog items type = items.map (image catalog · type) := by
  induction items with
  | nil => rfl
  | cons item items ih => rw [itemImages, ih, List.map_cons]

theorem entryImages_eq_map (entries : List (Datum × Datum)) (keyType valueType : Schema) :
    entryImages catalog entries keyType valueType =
      entries.map fun entry =>
        (image catalog entry.1 keyType, image catalog entry.2 valueType) := by
  induction entries with
  | nil => rfl
  | cons entry entries ih => rw [entryImages, ih, List.map_cons]

theorem placedImages_eq_map (items : List Datum) (types : List Schema) :
    placedImages catalog items types =
      (items.zip types).map fun placed => image catalog placed.1 placed.2 := by
  induction items generalizing types with
  | nil => rfl
  | cons item items ih =>
      cases types with
      | nil => rfl
      | cons type types => rw [placedImages, ih, List.zip_cons_cons, List.map_cons]

/-- The values of the fields that are written, each with its field. -/
def written (values : List Datum) (fields : List (Field Schema)) : List (Datum × Field Schema) :=
  (values.zip fields).filter fun placed => !placed.2.skip

theorem mem_written {values : List Datum} {fields : List (Field Schema)}
    {placed : Datum × Field Schema} :
    placed ∈ written values fields ↔ placed ∈ values.zip fields ∧ placed.2.skip = false := by
  rw [written, List.mem_filter, Bool.not_eq_true']

/-- The fields of the values that are written are those to be written. -/
theorem map_snd_written {values : List Datum} {fields : List (Field Schema)}
    (whole : values.length = fields.length) :
    (written values fields).map Prod.snd = Field.written fields := by
  have fields_eq : (values.zip fields).map Prod.snd = fields :=
    List.map_snd_zip (Nat.le_of_eq whole.symm)
  rw [Field.written, ← fields_eq, List.filter_map, fields_eq]
  rfl

/-- As many values are written as there are fields to be written. -/
theorem length_written {values : List Datum} {fields : List (Field Schema)}
    (whole : values.length = fields.length) :
    (written values fields).length = (Field.written fields).length := by
  rw [← map_snd_written whole, List.length_map]

theorem fieldImages_eq_map (values : List Datum) (fields : List (Field Schema)) :
    fieldImages catalog values fields =
      (written values fields).map fun placed =>
        (placed.2.key, image catalog placed.1 placed.2.type) := by
  induction values generalizing fields with
  | nil => rfl
  | cons value values ih =>
      cases fields with
      | nil => rfl
      | cons field fields =>
          cases skip : field.skip <;> simp [fieldImages, written, skip, ih]

/-- The image of a record in an array. -/
theorem image_array (values : List Datum) (fields others : List (Field Schema)) (index : Nat) :
    (Layout.array others).image index (fieldImages catalog values fields) =
      .array ((written values fields).map fun placed => image catalog placed.1 placed.2.type) := by
  rw [Layout.image, fieldImages_eq_map, List.map_map]
  rfl

/-- The image of a record in a map. -/
theorem image_map (values : List Datum) (fields others : List (Field Schema)) (index : Nat) :
    (Layout.map others).image index (fieldImages catalog values fields) =
      .map ((written values fields).map fun placed =>
        (.string placed.2.key, image catalog placed.1 placed.2.type)) := by
  rw [Layout.image, fieldImages_eq_map, List.map_map]
  rfl

/-! ## Data after reading -/

mutual

/-- The datum that a datum of a type is read as. -/
def restored (catalog : Catalog) : Datum → Schema → Datum
  | .atom content, _ => .atom content.restored
  | .none, _ => .none
  | .some item, type =>
      match type.bare with
      | .option inner => .some (restored catalog item inner)
      | _ => .some item
  | .list items, type =>
      match type.bare with
      | .sequence kind inner =>
          .list (kind.build (catalog.sortKey inner)
            (kind.elements (restoredItems catalog items inner)))
      | .array _ inner => .list (restoredItems catalog items inner)
      | .tuple types => .list (restoredPlaced catalog items types)
      | _ => .list items
  | .grid rows columns items, type =>
      match type.bare with
      | .grid inner => .grid rows columns (restoredItems catalog items inner)
      | _ => .grid rows columns items
  | .map entries, type =>
      match type.bare with
      | .map kind keyType valueType =>
          .map (Keyed.ofEntries (catalog.sortKey keyType) kind
            (restoredEntries catalog entries keyType valueType))
      | _ => .map entries
  | .record values, type => .record (restoredFields catalog values (catalog.fields type 0))
  | .variant index values, type =>
      .variant index (restoredFields catalog values (catalog.fields type index))
  | .typeless held content, _ => .typeless held content
termination_by structural content => content

/-- The items that items of one type are read as. -/
def restoredItems (catalog : Catalog) : List Datum → Schema → List Datum
  | [], _ => []
  | item :: items, type => restored catalog item type :: restoredItems catalog items type

/-- The keys and values that keys and values are read as. -/
def restoredEntries (catalog : Catalog) :
    List (Datum × Datum) → Schema → Schema → List (Datum × Datum)
  | [], _, _ => []
  | (key, value) :: entries, keyType, valueType =>
      (restored catalog key keyType, restored catalog value valueType) ::
        restoredEntries catalog entries keyType valueType

/-- The items that items of given types are read as. -/
def restoredPlaced (catalog : Catalog) : List Datum → List Schema → List Datum
  | item :: items, type :: types => restored catalog item type :: restoredPlaced catalog items types
  | _, _ => []

/-- The values that the values of fields are read as.  A field that is never written takes
the initial value of its type. -/
def restoredFields (catalog : Catalog) : List Datum → List (Field Schema) → List Datum
  | value :: values, field :: fields =>
      (if field.skip then field.type.initial catalog.initial
        else restored catalog value field.type) :: restoredFields catalog values fields
  | _, _ => []

end

theorem restoredItems_eq_map (items : List Datum) (type : Schema) :
    restoredItems catalog items type = items.map (restored catalog · type) := by
  induction items with
  | nil => rfl
  | cons item items ih => rw [restoredItems, ih, List.map_cons]

theorem restoredEntries_eq_map (entries : List (Datum × Datum)) (keyType valueType : Schema) :
    restoredEntries catalog entries keyType valueType =
      entries.map fun entry =>
        (restored catalog entry.1 keyType, restored catalog entry.2 valueType) := by
  induction entries with
  | nil => rfl
  | cons entry entries ih => rw [restoredEntries, ih, List.map_cons]

theorem restoredPlaced_eq_map (items : List Datum) (types : List Schema) :
    restoredPlaced catalog items types =
      (items.zip types).map fun placed => restored catalog placed.1 placed.2 := by
  induction items generalizing types with
  | nil => rfl
  | cons item items ih =>
      cases types with
      | nil => rfl
      | cons type types => rw [restoredPlaced, ih, List.zip_cons_cons, List.map_cons]

/-- The value that the value of a field is read as. -/
def restoredField (catalog : Catalog) (value : Datum) (field : Field Schema) : Datum :=
  if field.skip then field.type.initial catalog.initial else restored catalog value field.type

theorem restoredFields_eq_map (values : List Datum) (fields : List (Field Schema)) :
    restoredFields catalog values fields =
      (values.zip fields).map fun placed => restoredField catalog placed.1 placed.2 := by
  induction values generalizing fields with
  | nil => rfl
  | cons value values ih =>
      cases fields with
      | nil => rfl
      | cons field fields =>
          rw [restoredFields, ih, List.zip_cons_cons, List.map_cons, restoredField]

/-! ## Wrappers -/

/-- Wrappers leave no trace in the image. -/
theorem image_boxed (content : Datum) (type : Schema) :
    image catalog content (.boxed type) = image catalog content type := by
  cases content <;> rfl

theorem image_shared (content : Datum) (type : Schema) :
    image catalog content (.shared type) = image catalog content type := by
  cases content <;> rfl

theorem restored_boxed (content : Datum) (type : Schema) :
    restored catalog content (.boxed type) = restored catalog content type := by
  cases content <;> rfl

theorem restored_shared (content : Datum) (type : Schema) :
    restored catalog content (.shared type) = restored catalog content type := by
  cases content <;> rfl

end Datum

end MsgPack
