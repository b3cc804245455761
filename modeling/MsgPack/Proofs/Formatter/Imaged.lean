import MsgPack.Proofs.Formatter.Defined
import MsgPack.Proofs.Value.Nesting

/-!
# Images of defined types

The image of a record or of a variant has the bytes that its layout makes from those of its
fields, and is nested as deep as the layout and the images of its fields are.
-/

namespace MsgPack.Decode

open Datum (fieldImages fieldImages_eq_map image image_array image_map length_written
  map_snd_written restored restoredFields restoredFields_eq_map written)

variable {catalog : Catalog} {name : String} {definition : Definition Schema} {index : Nat}
variable {values : List Datum} {fields : List (Field Schema)} {variants : List (Variant Schema)}
variable {chosen : Variant Schema}

/-- The fields of a record after reading. -/
theorem restoredFields_eq (values : List Datum) (fields : List (Field Schema)) :
    restoredFields catalog values fields =
      (values.zip fields).map
        (fieldResult catalog fun placed => restored catalog placed.1 placed.2.type) := by
  rw [restoredFields_eq_map]
  rfl

theorem image_datum (defined : catalog.definition? name = some definition) (index : Nat)
    (values : List Datum) :
    image catalog (definition.layout.datum index values) (.named name) =
      definition.layout.image index
        (fieldImages catalog values (definition.layout.fields index)) := by
  cases layout : definition.layout <;>
    simp only [Layout.datum, image, Catalog.image_named defined, Catalog.fields_named defined,
      layout] <;> rfl

theorem restored_datum (defined : catalog.definition? name = some definition) (index : Nat)
    (values : List Datum) :
    restored catalog (definition.layout.datum index values) (.named name) =
      definition.layout.datum index
        (restoredFields catalog values (definition.layout.fields index)) := by
  cases layout : definition.layout <;>
    simp only [Layout.datum, restored, Catalog.fields_named defined, layout] <;> rfl

/-! ## Written fields -/

/-- The images of the values of the written fields. -/
def writtenImages (catalog : Catalog) (values : List Datum) (fields : List (Field Schema)) :
    List Value :=
  (written values fields).map fun placed => image catalog placed.1 placed.2.type

/-- The bytes of the image of the value of a field. -/
def imageBytes (catalog : Catalog) (placed : Datum × Field Schema) : Bytes :=
  (image catalog placed.1 placed.2.type).encoding

/-- Text does not nest, so the entries of a map are as deep as their values. -/
theorem nestingEntries_keyed (placed : List (Datum × Field Schema)) :
    Value.nestingEntries (placed.map fun placed =>
        (.string placed.2.key, image catalog placed.1 placed.2.type)) =
      Value.nestingItems (placed.map fun placed => image catalog placed.1 placed.2.type) := by
  induction placed with
  | nil => rfl
  | cons placed others ih =>
      have flat : (Value.string placed.2.key).nesting = 0 := rfl
      rw [List.map_cons, List.map_cons, Value.nestingEntries, Value.nestingItems, ih, flat,
        Nat.zero_max]

/-- The bytes of an array of fields. -/
theorem encoding_writtenImages (values : List Datum) (fields : List (Field Schema)) :
    (Value.array (writtenImages catalog values fields)).encoding =
      arrayHeader (keyed (imageBytes catalog) values fields).length ++
        (keyed (imageBytes catalog) values fields).flatMap Prod.snd := by
  rw [Value.encoding, flatMap_keyed, keyed, writtenImages, List.length_map, List.length_map,
    Value.encodingItems_eq_flatMap, List.flatMap_map]
  rfl

/-- The number of a variant is written in the shortest form of an integer. -/
theorem encoding_index {variants : List (Variant Schema)} (bounded : variants.length ≤ 0x100000000)
    (held : index < variants.length) : (Value.ofInt index).encoding = compactInteger index :=
  Value.encoding_ofInt (by omega) (by omega)

/-! ## Layouts -/

/-- The image of a record or a variant is made from its bytes, and is as deep as the images of its
written fields and the layout. -/
structure Imaged (catalog : Catalog) (layout : Layout Schema) (index : Nat) (values : List Datum)
    (fields : List (Field Schema)) : Prop where
  writable : layout.Writable index
  fits : Value.FitsItems (writtenImages catalog values fields)
  encoding : (layout.image index (fieldImages catalog values fields)).encoding =
    layout.encoding index (keyed (imageBytes catalog) values fields)
  nesting : (layout.image index (fieldImages catalog values fields)).nesting =
    Value.nestingItems (writtenImages catalog values fields) + layout.depth index

theorem imaged_unit : Imaged catalog .unit index [] [] :=
  ⟨trivial, trivial, rfl, rfl⟩

theorem imaged_array (whole : values.length = fields.length)
    (fits : (Value.array (writtenImages catalog values fields)).Fits) :
    Imaged catalog (.array fields) index values fields := by
  rcases fits with ⟨count, fits⟩
  rw [writtenImages, List.length_map, length_written whole] at count
  refine ⟨count, fits, ?_, ?_⟩
  · rw [image_array]
    exact encoding_writtenImages values fields
  · rw [image_array]
    rfl

theorem imaged_map (whole : values.length = fields.length)
    (fits : ((Layout.map fields).image index (fieldImages catalog values fields)).Fits) :
    Imaged catalog (.map fields) index values fields := by
  rw [image_map] at fits
  rcases fits with ⟨count, fits⟩
  rw [List.length_map, length_written whole] at count
  have each := Value.fitsEntries_iff.1 fits
  refine ⟨⟨count, ?_⟩, ?_, ?_, ?_⟩
  · intro field member
    rw [← map_snd_written whole] at member
    rcases List.mem_map.1 member with ⟨placed, inside, rfl⟩
    exact (each _ (List.mem_map_of_mem inside)).1
  · refine Value.fitsItems_iff.2 fun image member => ?_
    rcases List.mem_map.1 member with ⟨placed, inside, rfl⟩
    exact (each _ (List.mem_map_of_mem inside)).2
  · rw [image_map, Value.encoding, Layout.encoding, flatMap_keyed_entries, keyed, List.length_map,
      List.length_map, Value.encodingEntries_eq_flatMap, List.flatMap_map]
    rfl
  · rw [image_map, Value.nesting, nestingEntries_keyed]
    rfl

theorem imaged_byIndex (bounded : variants.length ≤ 0x100000000)
    (held : index < variants.length) : Imaged catalog (.byIndex variants) index [] [] :=
  ⟨trivial, trivial, encoding_index bounded held, Value.nesting_ofInt index⟩

theorem imaged_byName (shape : variants[index]? = some chosen)
    (fits : (Value.string chosen.name).Fits) : Imaged catalog (.byName variants) index [] [] := by
  refine ⟨?_, trivial, ?_, ?_⟩
  · intro other same
    obtain rfl := Option.some.inj (shape.symm.trans same)
    exact fits
  · rw [Layout.image, Layout.encoding, shape]
    rfl
  · rw [Layout.image, shape]
    rfl

theorem imaged_tagged_unit (bounded : variants.length ≤ 0x100000000)
    (shape : variants[index]? = some chosen) (payload : chosen.fields = none) :
    Imaged catalog (.tagged variants) index [] [] := by
  have held := (List.getElem?_eq_some_iff.1 shape).1
  have known : variants[index]?.bind Variant.fields = none := by
    rw [shape, Option.bind_some, payload]
  refine ⟨?_, trivial, ?_, ?_⟩
  · rw [Layout.Writable, known]
    rintro _ ⟨⟩
  · rw [Layout.image, Layout.encoding, known, Value.encoding, Value.encodingItems,
      encoding_index bounded held]
    rfl
  · rw [Layout.image, Layout.depth, known]
    exact Value.nesting_pair index .nil

theorem imaged_tagged (bounded : variants.length ≤ 0x100000000)
    (shape : variants[index]? = some chosen) (payload : chosen.fields = some fields)
    (whole : values.length = fields.length)
    (fits : ((Layout.tagged variants).image index (fieldImages catalog values fields)).Fits) :
    Imaged catalog (.tagged variants) index values fields := by
  have held := (List.getElem?_eq_some_iff.1 shape).1
  have known : variants[index]?.bind Variant.fields = some fields := by
    rw [shape, Option.bind_some, payload]
  have image : (Layout.tagged variants).image index (fieldImages catalog values fields) =
      .array [.ofInt index, .array (writtenImages catalog values fields)] := by
    rw [Layout.image, known, fieldImages_eq_map, List.map_map]
    rfl
  rw [image] at fits
  obtain ⟨count, fits⟩ := Value.fitsItems_iff.1 fits.2 _
    (List.mem_cons_of_mem _ List.mem_cons_self)
  rw [writtenImages, List.length_map, length_written whole] at count
  refine ⟨?_, fits, ?_, ?_⟩
  · rw [Layout.Writable, known]
    rintro _ ⟨⟩
    exact count
  · rw [image, Layout.encoding, known]
    rw [← encoding_writtenImages, Value.encoding, Value.encodingItems, Value.encodingItems,
      Value.encodingItems, List.append_nil, encoding_index bounded held]
    rfl
  · rw [image, Layout.depth, known, Value.nesting_pair, Value.nesting]
    rfl

/-- This is so for all data that can be written. -/
theorem imaged_of_fits {layout : Layout Schema} (unambiguous : layout.Unambiguous)
    (held : layout.Holds index) (whole : values.length = (layout.fields index).length)
    (fits : (layout.image index (fieldImages catalog values (layout.fields index))).Fits) :
    Imaged catalog layout index values (layout.fields index) := by
  rcases unambiguous with ⟨distinct, plain⟩
  cases layout with
  | unit =>
      obtain rfl : values = [] := List.eq_nil_of_length_eq_zero whole
      exact imaged_unit
  | array fields =>
      rw [image_array] at fits
      exact imaged_array whole fits
  | map fields => exact imaged_map whole fits
  | byIndex variants =>
      obtain rfl : values = [] := Variant.eq_nil_of_plain plain whole
      rw [show (Layout.byIndex variants).fields index = [] from Variant.fields_eq_nil plain index]
      exact imaged_byIndex distinct held
  | byName variants =>
      have shape : variants[index]? = some variants[index] := List.getElem?_eq_getElem held
      obtain rfl : values = [] := Variant.eq_nil_of_plain plain whole
      rw [Layout.image, shape] at fits
      rw [show (Layout.byName variants).fields index = [] from Variant.fields_eq_nil plain index]
      exact imaged_byName shape fits
  | tagged variants =>
      have shape : variants[index]? = some variants[index] := List.getElem?_eq_getElem held
      rw [Layout.fields_eq_of_variant shape] at whole fits ⊢
      cases payload : variants[index].fields with
      | none =>
          rw [payload] at whole
          obtain rfl : values = [] := List.eq_nil_of_length_eq_zero whole
          exact imaged_tagged_unit distinct shape payload
      | some fields =>
          rw [payload] at whole fits
          exact imaged_tagged distinct shape payload whole fits

/-- What has fields that are written opens a structure. -/
theorem depth_pos {layout : Layout Schema} (plain : layout.Plain) {field : Field Schema}
    (member : field ∈ layout.fields index) : 0 < layout.depth index := by
  have unit {variants : List (Variant Schema)}
      (none : ∀ variant ∈ variants, variant.fields = none) :
      field ∉ (variants[index]?.bind Variant.fields).getD [] := by
    rw [Variant.fields_eq_nil none index]
    exact List.not_mem_nil
  cases layout with
  | unit => exact absurd member List.not_mem_nil
  | array fields => exact Nat.one_pos
  | map fields => exact Nat.one_pos
  | byIndex variants => exact absurd member (unit plain)
  | byName variants => exact absurd member (unit plain)
  | tagged variants =>
      rw [Layout.depth]
      split <;> exact Nat.succ_pos _

end MsgPack.Decode
