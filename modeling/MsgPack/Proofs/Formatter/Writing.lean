import MsgPack.Proofs.Formatter.Coverage
import MsgPack.Proofs.Formatter.Image
import MsgPack.Proofs.Formatter.Standard

/-!
# Typed data are written as their images

With the formatters that types bring themselves, writing a datum of a covered type is writing
the value that is its image.  The cases are those of the typing of the datum; what stands in
a collection or a record is written item by item.
-/

namespace MsgPack

/-- A listed type brings a formatter. -/
theorem Schema.Listed.known {ρ : Type} {catalog : Catalog} {type : Schema}
    (listed : type.Listed catalog) :
    catalog.known type = (pure () : EStateM Error ρ Unit) := by
  cases type with
  | named name =>
      rcases listed with ⟨definition, defined, _⟩
      simp only [Catalog.known, Catalog.formatter?, defined, Option.map_some, Option.isSome_some,
        if_true]
  | _ => rfl

namespace Encode

open Session
open Datum (entryImages entryImages_eq_map fieldImages fieldImages_eq_map image itemImages
  itemImages_eq_map length_written placedImages placedImages_eq_map)

variable {catalog : Catalog}

/-- A datum of a type is written as its image. -/
def Faithful (catalog : Catalog) (content : Datum) (type : Schema) : Prop :=
  withMemory () (datum (.standard catalog) catalog content .builtin type) =
    (image catalog content type).write

/-! ## Wrappers -/

theorem withMemory_formatted_boxed (content : Datum) (parts : List (Part Unit))
    (shaped : Schema → Encode Unit Unit) (carried : Option Nat → Encode Unit Unit) (type : Schema) :
    withMemory ()
        (formatted (.standard catalog) content parts shaped carried .builtin (.boxed type)) =
      (do
        catalog.known type
        withMemory ()
          (formatted (.standard catalog) content parts shaped carried .builtin type)) := by
  simp only [formatted, settle, withMemory_bind, withMemory_find, bind_assoc, pure_bind]

theorem withMemory_formatted_shared (content : Datum) (parts : List (Part Unit))
    (shaped : Schema → Encode Unit Unit) (carried : Option Nat → Encode Unit Unit) (type : Schema) :
    withMemory ()
        (formatted (.standard catalog) content parts shaped carried .builtin (.shared type)) =
      (do
        catalog.known type
        withMemory ()
          (formatted (.standard catalog) content parts shaped carried .builtin type)) := by
  simp only [formatted, settle, withMemory_bind, withMemory_find, bind_assoc, pure_bind]

/-- A boxed value is written as the value. -/
theorem withMemory_datum_boxed {content : Datum} {type : Schema} (listed : type.Listed catalog) :
    withMemory () (datum (.standard catalog) catalog content .builtin (.boxed type)) =
      withMemory () (datum (.standard catalog) catalog content .builtin type) := by
  cases content <;>
    simp only [datum, plain, withMemory_formatted_boxed, listed.known, pure_bind]

theorem withMemory_datum_shared {content : Datum} {type : Schema} (listed : type.Listed catalog) :
    withMemory () (datum (.standard catalog) catalog content .builtin (.shared type)) =
      withMemory () (datum (.standard catalog) catalog content .builtin type) := by
  cases content <;>
    simp only [datum, plain, withMemory_formatted_shared, listed.known, pure_bind]

/-! ## Collections -/

theorem withMemory_items {items : List Datum} {type : Schema}
    (each : ∀ item ∈ items, Faithful catalog item type) :
    withMemory () (Encode.items (.standard catalog) catalog items .builtin type) =
      Value.writeItems (items.map (image catalog · type)) := by
  induction items with
  | nil => rfl
  | cons item items ih =>
      have first : Faithful catalog item type := each item List.mem_cons_self
      have others := ih fun other member => each other (List.mem_cons_of_mem item member)
      rw [Faithful] at first
      rw [Encode.items_cons, withMemory_bind, first, others]
      rfl

theorem withMemory_entries {entries : List (Datum × Datum)} {keyType valueType : Schema}
    (keys : ∀ entry ∈ entries, Faithful catalog entry.1 keyType)
    (values : ∀ entry ∈ entries, Faithful catalog entry.2 valueType) :
    withMemory ()
        (Encode.entries (.standard catalog) catalog entries .builtin keyType .builtin valueType) =
      Value.writeEntries (entries.map fun entry =>
        (image catalog entry.1 keyType, image catalog entry.2 valueType)) := by
  induction entries with
  | nil => rfl
  | cons entry entries ih =>
      have key : Faithful catalog entry.1 keyType := keys entry List.mem_cons_self
      have value : Faithful catalog entry.2 valueType := values entry List.mem_cons_self
      have others := ih (fun other member => keys other (List.mem_cons_of_mem entry member))
        fun other member => values other (List.mem_cons_of_mem entry member)
      rw [Faithful] at key value
      rw [Encode.entries, withMemory_bind, withMemory_bind, key, value, others]
      rfl

/-- A collection is written as an array of its items. -/
theorem withMemory_collection {items : List Datum} {type : Schema} (listed : type.Listed catalog)
    (each : ∀ item ∈ items, Faithful catalog item type) :
    withMemory () (do
        let formatter ← find (.standard catalog) type
        lift (Write.arrayHeader items.length)
        Encode.items (.standard catalog) catalog items formatter type) =
      (Value.array (itemImages catalog items type)).write := by
  rw [withMemory_bind, withMemory_find, listed.known, pure_bind, pure_bind, withMemory_bind,
    withMemory_lift, withMemory_items each, Value.write, itemImages_eq_map, List.length_map]

theorem faithful_sequence {items : List Datum} {type : Schema} (listed : type.Listed catalog)
    (each : ∀ item ∈ items, Faithful catalog item type) (kind : SequenceKind) :
    Faithful catalog (.list items) (.sequence kind type) := by
  have content : image catalog (.list items) (.sequence kind type) =
      .array (itemImages catalog (kind.elements items) type) := by
    rw [itemImages_eq_map, ← SequenceKind.elements_map, ← itemImages_eq_map]
    rfl
  rw [Faithful, datum_sequence, content]
  exact withMemory_collection listed fun item member =>
    each item (SequenceKind.mem_elements.1 member)

/-- A value that the lookup finds a formatter for is written as its image. -/
theorem withMemory_found {content : Datum} {type : Schema} (listed : type.Listed catalog)
    (faithful : Faithful catalog content type) :
    withMemory () (do
        datum (.standard catalog) catalog content (← find (.standard catalog) type) type) =
      (image catalog content type).write := by
  rw [withMemory_bind, withMemory_find, listed.known, pure_bind, pure_bind]
  exact faithful

theorem withMemory_tuple {items : List Datum} {types : List Schema}
    (listed : ∀ type ∈ types, type.Listed catalog)
    (each : ∀ placed ∈ items.zip types, Faithful catalog placed.1 placed.2) :
    withMemory () (tuple (.standard catalog) catalog items types) =
      Value.writeItems ((items.zip types).map fun placed => image catalog placed.1 placed.2) := by
  induction items generalizing types with
  | nil => rfl
  | cons item items ih =>
      cases types with
      | nil => rfl
      | cons type types =>
          have known := listed type List.mem_cons_self
          have first := each (item, type) List.mem_cons_self
          have others := ih (fun other member => listed other (List.mem_cons_of_mem type member))
            fun placed member => each placed (List.mem_cons_of_mem _ member)
          rw [tuple, ← bind_assoc, withMemory_bind, withMemory_found known first, others]
          rfl

theorem faithful_tuple {items : List Datum} {types : List Schema}
    (whole : items.length = types.length) (listed : ∀ type ∈ types, type.Listed catalog)
    (each : ∀ placed ∈ items.zip types, Faithful catalog placed.1 placed.2) :
    Faithful catalog (.list items) (.tuple types) := by
  have unfolded : withMemory ()
      (datum (.standard catalog) catalog (.list items) .builtin (.tuple types)) =
        withMemory () (do
          lift (Write.arrayHeader types.length)
          tuple (.standard catalog) catalog items types) := rfl
  have count : (items.zip types).length = types.length := by
    rw [List.length_zip, whole, Nat.min_self]
  have content : image catalog (.list items) (.tuple types) =
      .array (placedImages catalog items types) := rfl
  rw [Faithful, unfolded, withMemory_bind, withMemory_lift, withMemory_tuple listed each, content,
    placedImages_eq_map, Value.write, List.length_map, count]

theorem faithful_map {kind : MapKind} {entries : List (Datum × Datum)} {keyType valueType : Schema}
    (key : keyType.Listed catalog) (value : valueType.Listed catalog)
    (keys : ∀ entry ∈ entries, Faithful catalog entry.1 keyType)
    (values : ∀ entry ∈ entries, Faithful catalog entry.2 valueType) :
    Faithful catalog (.map entries) (.map kind keyType valueType) := by
  have unfolded : withMemory ()
      (datum (.standard catalog) catalog (.map entries) .builtin (.map kind keyType valueType)) =
        withMemory () (do
          let keys ← find (.standard catalog) keyType
          let values ← find (.standard catalog) valueType
          lift (Write.mapHeader entries.length)
          Encode.entries (.standard catalog) catalog entries keys keyType values valueType) := rfl
  have content : image catalog (.map entries) (.map kind keyType valueType) =
      .map (entryImages catalog entries keyType valueType) := rfl
  rw [Faithful, unfolded, content, entryImages_eq_map, Value.write, List.length_map]
  simp [key.known, value.known, withMemory_entries keys values]

theorem faithful_grid {rows columns : Nat} {items : List Datum} {type : Schema}
    (row : rows < 0x10000000000000000) (column : columns < 0x10000000000000000)
    (listed : type.Listed catalog) (each : ∀ item ∈ items, Faithful catalog item type) :
    Faithful catalog (.grid rows columns items) (.grid type) := by
  have unfolded : withMemory ()
      (datum (.standard catalog) catalog (.grid rows columns items) .builtin (.grid type)) =
        withMemory () (do
          let formatter ← find (.standard catalog) type
          lift (Write.arrayHeader 3)
          lift (Write.int rows)
          lift (Write.int columns)
          lift (Write.arrayHeader items.length)
          Encode.items (.standard catalog) catalog items formatter type) := rfl
  have content : image catalog (.grid rows columns items) (.grid type) =
      .array [.ofInt rows, .ofInt columns, .array (itemImages catalog items type)] := rfl
  have first : (Value.ofInt rows).write = Write.int rows :=
    Value.write_ofInt (by omega) (by omega)
  have second : (Value.ofInt columns).write = Write.int columns :=
    Value.write_ofInt (by omega) (by omega)
  rw [Faithful, unfolded, content]
  simp [listed.known, withMemory_items each, Value.write, Value.writeItems, first, second,
    itemImages_eq_map]

/-! ## Fields -/

/-- The values of the fields that are written, in order. -/
theorem withMemory_fieldValues {values : List Datum} {fields : List (Field Schema)}
    (listed : ∀ field ∈ fields, field.skip = false → field.type.Listed catalog)
    (each : ∀ placed ∈ values.zip fields, placed.2.skip = false →
      Faithful catalog placed.1 placed.2.type) :
    withMemory () (fieldValues (.standard catalog) catalog false values fields) =
        Value.writeItems ((fieldImages catalog values fields).map Prod.snd) ∧
      withMemory () (fieldValues (.standard catalog) catalog true values fields) =
        Value.writeEntries ((fieldImages catalog values fields).map fun field =>
          (.string field.1, field.2)) := by
  induction values generalizing fields with
  | nil => exact ⟨rfl, rfl⟩
  | cons value values ih =>
      cases fields with
      | nil => exact ⟨rfl, rfl⟩
      | cons field fields =>
          obtain ⟨plain, keyed⟩ := ih
            (fun other member => listed other (List.mem_cons_of_mem field member))
            fun placed member => each placed (List.mem_cons_of_mem _ member)
          cases skip : field.skip with
          | true => simp [fieldValues, fieldImages, skip, plain, keyed]
          | false =>
              have known := listed field List.mem_cons_self skip
              have first := each (value, field) List.mem_cons_self skip
              have found := withMemory_found known first
              rw [withMemory_bind] at found
              constructor
              · simp [fieldValues, fieldImages, skip, plain, Value.writeItems, ← found]
              · simp [fieldValues, fieldImages, skip, keyed, Value.writeEntries, Value.write,
                  ← found]

/-! ## Defined types -/

variable {name : String} {definition : Definition Schema}

theorem faithful_record {fields : List (Field Schema)} {values : List Datum}
    (defined : catalog.definition? name = some definition)
    (shape : definition.layout.record? = some fields) (whole : values.length = fields.length)
    (listed : ∀ field ∈ fields, field.skip = false → field.type.Listed catalog)
    (each : ∀ placed ∈ values.zip fields, placed.2.skip = false →
      Faithful catalog placed.1 placed.2.type) :
    Faithful catalog (.record values) (.named name) := by
  obtain ⟨plain, keyed⟩ := withMemory_fieldValues listed each
  have count : (fieldImages catalog values fields).length = (Field.written fields).length := by
    rw [fieldImages_eq_map, List.length_map, length_written whole]
  have unfolded : withMemory ()
      (datum (.standard catalog) catalog (.record values) .builtin (.named name)) =
        withMemory () (do
          let header ← recordHeader catalog name
          fieldValues (.standard catalog) catalog header.1 values header.2) := rfl
  rw [Faithful, unfolded, image, Catalog.image_named defined, Catalog.fields_named defined]
  cases layout : definition.layout with
  | unit =>
      rw [layout] at shape
      cases shape
      cases values with
      | nil => simp [recordHeader, defined, layout, fieldValues, Layout.image, Value.write]
      | cons value values => cases whole
  | array fields =>
      rw [layout] at shape
      cases shape
      simp [recordHeader, defined, layout, plain, Layout.image, Layout.fields, Value.write, count]
  | map fields =>
      rw [layout] at shape
      cases shape
      simp [recordHeader, defined, layout, keyed, Layout.image, Layout.fields, Value.write, count]
  | _ =>
      rw [layout] at shape
      cases shape

/-- The number of a variant is written as an integer. -/
theorem write_index {variants : List (Variant Schema)} {index : Nat} {chosen : Variant Schema}
    (bounded : variants.length ≤ 0x100000000) (shape : variants[index]? = some chosen) :
    (Value.ofInt index).write = Write.int index := by
  rcases List.getElem?_eq_some_iff.1 shape with ⟨bound, _⟩
  exact Value.write_ofInt (by omega) (by omega)

theorem faithful_variant {index : Nat} {chosen : Variant Schema} {values : List Datum}
    (defined : catalog.definition? name = some definition)
    (unambiguous : definition.layout.Unambiguous)
    (shape : definition.layout.variants[index]? = some chosen)
    (whole : values.length = (chosen.fields.getD []).length)
    (listed : ∀ field ∈ chosen.fields.getD [], field.skip = false → field.type.Listed catalog)
    (each : ∀ placed ∈ values.zip (chosen.fields.getD []), placed.2.skip = false →
      Faithful catalog placed.1 placed.2.type) :
    Faithful catalog (.variant index values) (.named name) := by
  obtain ⟨plain, _⟩ := withMemory_fieldValues listed each
  have count := length_written whole
  have unfolded : withMemory ()
      (datum (.standard catalog) catalog (.variant index values) .builtin (.named name)) =
        withMemory () (do
          let fields ← variantHeader catalog name index
          fieldValues (.standard catalog) catalog false values fields) := rfl
  have empty (fields : chosen.fields = none) : values = [] := by
    rw [fields] at whole
    exact List.eq_nil_of_length_eq_zero whole
  rcases unambiguous with ⟨distinct, unit⟩
  rw [Faithful, unfolded, image, Catalog.image_named defined, Catalog.fields_named defined]
  cases layout : definition.layout with
  | byIndex variants =>
      rw [layout] at shape distinct unit
      have number := write_index distinct shape
      obtain rfl := empty (unit chosen (List.mem_of_getElem? shape))
      simp [variantHeader, defined, layout, fieldValues, Layout.image, number]
  | byName variants =>
      rw [layout] at shape unit
      obtain rfl := empty (unit chosen (List.mem_of_getElem? shape))
      have shape : variants[index]? = some chosen := shape
      simp [variantHeader, defined, layout, shape, fieldValues, Layout.image, Value.write]
  | tagged variants =>
      rw [layout] at shape distinct
      have number := write_index distinct shape
      have shape : variants[index]? = some chosen := shape
      cases held : chosen.fields with
      | none =>
          obtain rfl := empty held
          simp [variantHeader, defined, layout, shape, held, fieldValues, Layout.image,
            Value.write, Value.writeItems, number]
      | some fields =>
          rw [held] at plain count
          simp only [Option.getD_some] at plain count
          have count :
              (fieldImages catalog values fields).length = (Field.written fields).length := by
            rw [fieldImages_eq_map, List.length_map, count]
          simp [variantHeader, defined, layout, shape, held, Layout.image, Layout.fields,
            Layout.variants, Value.write, Value.writeItems, number, plain, count]
  | _ =>
      rw [layout] at shape
      cases shape

/-! ## Any type -/

open Schema (Covered Inside)

/-- Data of a covered type are written as their images. -/
theorem faithful {content : Datum} {type : Schema} (typed : HasType catalog content type)
    (covered : type.Covered catalog) : Faithful catalog content type := by
  induction typed with
  | scalar holds =>
      have same := Scalar.write_eq covered.listed holds
      exact (withMemory_lift () _).trans same
  | typeless inside => exact covered.listed.elim
  | none => rfl
  | some inside ih =>
      have item := covered.part fun _ => Inside.option
      exact withMemory_found item.listed (ih item)
  | boxed inside ih =>
      have item := covered.part fun _ => Inside.boxed
      rw [Faithful, withMemory_datum_boxed item.listed, Datum.image_boxed]
      exact ih item
  | shared inside ih =>
      have item := covered.part fun _ => Inside.shared
      rw [Faithful, withMemory_datum_shared item.listed, Datum.image_shared]
      exact ih item
  | sequence admitted inside ih =>
      have item := covered.part fun _ => Inside.sequence
      exact faithful_sequence item.listed (fun content member => ih content member item) _
  | array whole inside ih =>
      have item := covered.part fun _ => Inside.array
      exact withMemory_collection item.listed fun content member => ih content member item
  | grid whole bounded row column inside ih =>
      have item := covered.part fun _ => Inside.grid
      exact faithful_grid row column item.listed fun content member => ih content member item
  | map admitted keys values ihKeys ihValues =>
      have key := covered.part fun _ => Inside.key
      have value := covered.part fun _ => Inside.value
      exact faithful_map key.listed value.listed
        (fun entry member => ihKeys entry member key)
        fun entry member => ihValues entry member value
  | tuple whole inside ih =>
      have item {type : Schema} (member : type ∈ _) := covered.part fun _ => Inside.tuple member
      refine faithful_tuple whole (fun type member => (item member).listed) ?_
      exact fun placed member => ih placed member (item (List.of_mem_zip member).2)
  | record defined shape whole inside ih =>
      refine faithful_record defined shape whole (fun field member written => ?_)
        fun placed member written => ih placed member (covered.part fun _ => ?_)
      · exact (covered.part fun _ => Inside.record defined shape member written).listed
      · exact Inside.record defined shape (List.of_mem_zip member).2 written
  | variant defined shape whole inside ih => 
      obtain ⟨_, same, unambiguous⟩ := covered.listed
      obtain rfl := Option.some.inj (defined.symm.trans same)
      refine faithful_variant defined unambiguous shape whole (fun field member written => ?_)
        fun placed member written => ih placed member (covered.part fun _ => ?_)
      · exact (covered.part fun _ => Inside.variant defined shape member written).listed
      · exact Inside.variant defined shape (List.of_mem_zip member).2 written

end Encode

/-- Writing a datum of a covered type is writing its image. -/
theorem Write.datum_eq {catalog : Catalog} {content : Datum} {type : Schema}
    (typed : HasType catalog content type) (covered : type.Covered catalog) :
    Write.datum catalog type content = (content.image catalog type).write :=
  Encode.withMemory_found covered.listed (Encode.faithful typed covered)

/-- The bytes of a datum of a covered type are those of its image. -/
theorem serialize_eq {catalog : Catalog} {content : Datum} {type : Schema}
    (typed : HasType catalog content type) (covered : type.Covered catalog)
    (fits : (content.image catalog type).Fits) :
    serialize catalog type content = .ok (content.image catalog type).encoding := by
  rw [serialize, Write.datum_eq typed covered, Value.write_of_fits fits, Write.run, Write.emit]
  simp

end MsgPack
