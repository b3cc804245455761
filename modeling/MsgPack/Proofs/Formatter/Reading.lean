import MsgPack.Proofs.Collection.Keyed
import MsgPack.Proofs.Formatter.Containers
import MsgPack.Proofs.Formatter.Imaged

/-!
# Typed data are read from their images

With the formatters that types bring themselves, a datum of a covered type is read from the
bytes of its image, if it contains nothing that the wire confuses with something else.  The
cases are those of the typing of the datum.  The budget of levels goes down where the image
is nested, and stays the same at wrappers and options.
-/

namespace MsgPack.Decode

open Session
open Datum (image mem_written restored written)

variable {catalog : Catalog} {budget : Nat}

/-- A datum of a type is read from the bytes of its image, if these can be written and as many
levels are left as the image is nested deep. -/
def Restores (catalog : Catalog) (content : Datum) (type : Schema) : Prop :=
  (image catalog content type).Fits → ∀ budget, (image catalog content type).nesting ≤ budget →
    TakesImage (image catalog content type).nesting (within (.standard catalog) catalog budget)
      type (image catalog content type) (restored catalog content type)

namespace Restores

variable {content : Datum} {type : Schema}

/-- What stands in an array is read one level deeper. -/
theorem item {images : List Value} (restores : Restores catalog content type)
    (member : image catalog content type ∈ images) (fits : Value.FitsItems images)
    (within : Value.nestingItems images ≤ budget) :
    TakesImage (Value.nestingItems images) (inside catalog (budget + 1)) type
      (image catalog content type) (restored catalog content type) := by
  have deep := Value.nesting_le_nestingItems member
  have fits := Value.fitsItems_iff.1 fits _ member
  exact (restores fits budget (Nat.le_trans deep within)).mono deep

theorem key {images : List (Value × Value)} {value : Value}
    (restores : Restores catalog content type)
    (member : (image catalog content type, value) ∈ images) (fits : Value.FitsEntries images)
    (within : Value.nestingEntries images ≤ budget) :
    TakesImage (Value.nestingEntries images) (inside catalog (budget + 1)) type
      (image catalog content type) (restored catalog content type) := by
  have deep := (Value.nesting_le_nestingEntries member).1
  have fits := (Value.fitsEntries_iff.1 fits _ member).1
  exact (restores fits budget (Nat.le_trans deep within)).mono deep

theorem value {images : List (Value × Value)} {key : Value}
    (restores : Restores catalog content type)
    (member : (key, image catalog content type) ∈ images) (fits : Value.FitsEntries images)
    (within : Value.nestingEntries images ≤ budget) :
    TakesImage (Value.nestingEntries images) (inside catalog (budget + 1)) type
      (image catalog content type) (restored catalog content type) := by
  have deep := (Value.nesting_le_nestingEntries member).2
  have fits := (Value.fitsEntries_iff.1 fits _ member).2
  exact (restores fits budget (Nat.le_trans deep within)).mono deep

end Restores

/-! ## Scalar types -/

theorem restores_scalar {type : Scalar} {content : Atom} (covered : type.Covered)
    (holds : type.Holds content) (clear : (Datum.atom content).Clear catalog (.scalar type)) :
    Restores catalog (.atom content) (.scalar type) := by
  have normal : ∀ value, content = .value value → value.normal = value := by
    rintro value rfl
    cases type with
    | value => exact clear.values value .self
    | _ => exact holds.elim
  intro fits budget _
  rw [TakesImage, within_builtin, shaped, withMemory_bind, withMemory_lift]
  exact (Scalar.takes_image covered holds fits normal).mapped _

/-! ## Wrappers and options -/

theorem restores_boxed {content : Datum} {type : Schema} (listed : type.Listed catalog)
    (restores : Restores catalog content type) : Restores catalog content (.boxed type) := by
  rw [Restores, Datum.image_boxed, Datum.restored_boxed]
  intro fits budget bound
  have takes := restores fits budget bound
  simp only [TakesImage, within_builtin] at takes ⊢
  simp only [shaped, formatted, withMemory_bind, withMemory_find, listed.known, pure_bind]
  exact takes

theorem restores_shared {content : Datum} {type : Schema} (listed : type.Listed catalog)
    (restores : Restores catalog content type) : Restores catalog content (.shared type) := by
  rw [Restores, Datum.image_shared, Datum.restored_shared]
  intro fits budget bound
  have takes := restores fits budget bound
  simp only [TakesImage, within_builtin] at takes ⊢
  simp only [shaped, formatted, withMemory_bind, withMemory_find, listed.known, pure_bind]
  exact takes

theorem restores_none (type : Schema) : Restores catalog .none (.option type) := by
  intro _ budget _
  rw [TakesImage, within_builtin]
  simp only [shaped, withMemory_bind, withMemory_lift]
  exact Read.takes_tryNil.andThen (.pure Datum.none)

/-- A filled option is read as what it holds, unless that is written as nil. -/
theorem restores_some {content : Datum} {type : Schema} (listed : type.Listed catalog)
    (restores : Restores catalog content type)
    (present : (image catalog content type).Fits →
      (image catalog content type).encoding ≠ [Format.nil.code]) :
    Restores catalog (.some content) (.option type) := by
  intro fits budget bound
  have fits : (image catalog content type).Fits := fits
  have takes := restores fits budget bound
  have unfolded : image catalog (.some content) (.option type) = image catalog content type := rfl
  rw [unfolded] at bound ⊢
  simp only [TakesImage, within_builtin] at takes ⊢
  simp only [shaped, formatted, withMemory_bind, withMemory_lift, withMemory_ite, withMemory_find,
    listed.known, withMemory_pure, pure_bind]
  cases begins : (image catalog content type).encoding with
  | nil =>
      have positive := Value.length_encoding_pos fits
      rw [begins] at positive
      exact absurd positive (Nat.lt_irrefl 0)
  | cons code bytes =>
      have other : Format.ofCode code ≠ .nil := by
        intro nil
        have owned := Format.code_ofCode code
        rw [nil] at owned
        rw [← owned (by decide)] at begins
        exact present fits (begins.trans (congrArg _ (Value.encoding_eq_nil fits begins)))
      rw [begins] at takes
      exact Read.takes_tryNilThen other (takes.mapped Datum.some)

/-- What stands in an array is read one level deeper than the array, whatever its types. -/
theorem takes_parts {α : Type} {sources : List α} (content : α → Datum) (type : α → Schema)
    (each : ∀ source ∈ sources, Restores catalog (content source) (type source))
    (fits : Value.FitsItems
      (sources.map fun source => image catalog (content source) (type source)))
    (bound : Value.nestingItems
      (sources.map fun source => image catalog (content source) (type source)) ≤ budget) :
    ∀ source ∈ sources,
      TakesImage
        (Value.nestingItems
          (sources.map fun source => image catalog (content source) (type source)))
        (inside catalog (budget + 1)) (type source) (image catalog (content source) (type source))
        (restored catalog (content source) (type source)) := by
  intro source member
  have held := List.mem_map_of_mem (f := fun source => image catalog (content source) (type source))
    member
  exact (each source member).item held fits bound

/-! ## Collections -/

section Collections

variable {items : List Datum} {type : Schema}

theorem restores_sequence (kind : SequenceKind) (listed : type.Listed catalog)
    (each : ∀ item ∈ items, Restores catalog item type) :
    Restores catalog (.list items) (.sequence kind type) := by
  have content : image catalog (.list items) (.sequence kind type) =
      .array ((kind.elements items).map (image catalog · type)) := by
    rw [← SequenceKind.elements_map, ← Datum.itemImages_eq_map]
    rfl
  have result : restored catalog (.list items) (.sequence kind type) =
      .list (kind.build (catalog.sortKey type)
        ((kind.elements items).map (restored catalog · type))) := by
    rw [← SequenceKind.elements_map, ← Datum.restoredItems_eq_map]
    rfl
  rw [Restores, content, result]
  intro fits budget bound
  cases budget with
  | zero => exact absurd bound (Nat.not_succ_le_zero _)
  | succ budget =>
      have inside := takes_parts (fun item => item) (fun _ => type)
        (fun item member => each item (SequenceKind.mem_elements.1 member)) fits.2
        (Nat.le_of_succ_le_succ bound)
      rw [TakesImage, within_builtin, shaped, withMemory_bind]
      exact (takes_collection listed fits inside).mapped _

theorem restores_array {length : Nat} (listed : type.Listed catalog)
    (whole : items.length = length) (each : ∀ item ∈ items, Restores catalog item type) :
    Restores catalog (.list items) (.array length type) := by
  have content : image catalog (.list items) (.array length type) =
      .array (items.map (image catalog · type)) := by
    rw [← Datum.itemImages_eq_map]
    rfl
  have result : restored catalog (.list items) (.array length type) =
      .list (items.map (restored catalog · type)) := by
    rw [← Datum.restoredItems_eq_map]
    rfl
  rw [Restores, content, result]
  intro fits budget bound
  cases budget with
  | zero => exact absurd bound (Nat.not_succ_le_zero _)
  | succ budget =>
      have inside := takes_parts (fun item => item) (fun _ => type) each fits.2
        (Nat.le_of_succ_le_succ bound)
      rw [TakesImage, within_builtin, shaped]
      exact takes_array listed whole fits inside

theorem restores_grid {rows columns : Nat} (listed : type.Listed catalog)
    (whole : items.length = rows * columns) (bounded : rows * columns < 0x10000000000000000)
    (row : rows < 0x10000000000000000) (column : columns < 0x10000000000000000)
    (each : ∀ item ∈ items, Restores catalog item type) :
    Restores catalog (.grid rows columns items) (.grid type) := by
  have content : image catalog (.grid rows columns items) (.grid type) =
      .array [.ofInt rows, .ofInt columns, .array (items.map (image catalog · type))] := by
    rw [← Datum.itemImages_eq_map]
    rfl
  have result : restored catalog (.grid rows columns items) (.grid type) =
      .grid rows columns (items.map (restored catalog · type)) := by
    rw [← Datum.restoredItems_eq_map]
    rfl
  have deep : (Value.array [.ofInt rows, .ofInt columns,
      .array (items.map (image catalog · type))]).nesting =
        Value.nestingItems (items.map (image catalog · type)) + 1 + 1 := by
    simp [Value.nesting, Value.nestingItems, Value.nesting_ofInt]
  rw [Restores, content, result, deep]
  intro fits budget bound
  cases budget with
  | zero => exact absurd bound (Nat.not_succ_le_zero _)
  | succ budget =>
      have fits : (Value.array (items.map (image catalog · type))).Fits :=
        Value.fitsItems_iff.1 fits.2 _ (by simp)
      have inside := takes_parts (fun item => item) (fun _ => type) each fits.2
        (Nat.le_of_succ_le (Nat.le_of_succ_le_succ bound))
      rw [TakesImage, within_builtin, shaped]
      exact takes_grid listed whole bounded row column fits inside

end Collections

theorem restores_map {entries : List (Datum × Datum)} {kind : MapKind} {keyType valueType : Schema}
    (key : keyType.Listed catalog) (value : valueType.Listed catalog)
    (keys : ∀ entry ∈ entries, Restores catalog entry.1 keyType)
    (values : ∀ entry ∈ entries, Restores catalog entry.2 valueType) :
    Restores catalog (.map entries) (.map kind keyType valueType) := by
  have content : image catalog (.map entries) (.map kind keyType valueType) =
      .map (entries.map fun entry =>
        (image catalog entry.1 keyType, image catalog entry.2 valueType)) := by
    rw [← Datum.entryImages_eq_map]
    rfl
  have result : restored catalog (.map entries) (.map kind keyType valueType) =
      .map (Keyed.ofEntries (catalog.sortKey keyType) kind (entries.map fun entry =>
        (restored catalog entry.1 keyType, restored catalog entry.2 valueType))) := by
    rw [← Datum.restoredEntries_eq_map]
    rfl
  rw [Restores, content, result]
  intro fits budget bound
  cases budget with
  | zero => exact absurd bound (Nat.not_succ_le_zero _)
  | succ budget =>
      have bound := Nat.le_of_succ_le_succ bound
      rw [TakesImage, within_builtin, shaped, withMemory_bind]
      refine (takes_entries key value fits (fun entry member => ?_) fun entry member => ?_).mapped _
      · exact (keys entry member).key (List.mem_map_of_mem member) fits.2 bound
      · exact (values entry member).value (List.mem_map_of_mem member) fits.2 bound

theorem restores_tuple {items : List Datum} {types : List Schema}
    (whole : items.length = types.length) (listed : ∀ type ∈ types, type.Listed catalog)
    (each : ∀ placed ∈ items.zip types, Restores catalog placed.1 placed.2) :
    Restores catalog (.list items) (.tuple types) := by
  have content : image catalog (.list items) (.tuple types) =
      .array ((items.zip types).map fun placed => image catalog placed.1 placed.2) := by
    rw [← Datum.placedImages_eq_map]
    rfl
  have result : restored catalog (.list items) (.tuple types) =
      .list ((items.zip types).map fun placed => restored catalog placed.1 placed.2) := by
    rw [← Datum.restoredPlaced_eq_map]
    rfl
  have count : (items.zip types).length = types.length := by
    rw [List.length_zip, whole, Nat.min_self]
  rw [Restores, content, result]
  intro fits budget bound
  cases budget with
  | zero => exact absurd bound (Nat.not_succ_le_zero _)
  | succ budget =>
      have inside := takes_parts Prod.fst Prod.snd each fits.2 (Nat.le_of_succ_le_succ bound)
      have enough := Value.length_le_encodingItems fits.2
      have room : types.length < 0x100000000 := by
        rw [← count, ← List.length_map]
        exact fits.1
      rw [List.length_map, count] at enough
      rw [TakesImage, within_builtin, shaped, withMemory_bind, withMemory_lift, Value.encoding,
        List.length_map, count]
      apply Scalar.takes_arrayOfThen room enough
      simp only [withMemory_bind, withMemory_nested, withMemory_pure]
      exact (takes_each whole listed inside).nested.mapped _

/-! ## Defined types -/

section Defined

variable {name : String} {definition : Definition Schema} {index : Nat} {values : List Datum}

/-- A named type is read by its definition. -/
theorem within_named (defined : catalog.definition? name = some definition) (budget : Nat) :
    withMemory () (within (.standard catalog) catalog budget .builtin (.named name)) =
      withMemory ()
        (Decode.defined (.standard catalog) catalog (inside catalog budget) definition) := by
  rw [within_builtin, shaped, defined]

theorem restores_defined (defined : catalog.definition? name = some definition)
    (unambiguous : definition.layout.Unambiguous) (held : definition.layout.Holds index)
    (whole : values.length = (definition.layout.fields index).length)
    (listed : ∀ field ∈ definition.layout.fields index, field.skip = false →
      field.type.Listed catalog)
    (each : ∀ placed ∈ values.zip (definition.layout.fields index), placed.2.skip = false →
      Restores catalog placed.1 placed.2.type) :
    Restores catalog (definition.layout.datum index values) (.named name) := by
  rw [Restores, image_datum defined, restored_datum defined, restoredFields_eq]
  intro fits budget bound
  obtain ⟨writable, fits, encoded, deep⟩ := imaged_of_fits unambiguous held whole fits
  rw [deep] at bound
  rw [TakesImage, within_named defined, encoded, deep, takes_withMemory]
  apply takes_defined unambiguous held writable whole
  · intro placed member
    exact List.length_pos_iff.1 (Value.length_encoding_pos
      (Value.fitsItems_iff.1 fits _ (List.mem_map_of_mem member)))
  · intro placed member kept
    have field := (List.of_mem_zip member).2
    have opens := depth_pos unambiguous.plain field
    obtain ⟨budget, rfl⟩ : ∃ less, budget = less + 1 := Nat.exists_eq_add_one.2 (by omega)
    have kept_each : ∀ placed ∈ written values (definition.layout.fields index),
        Restores catalog placed.1 placed.2.type := by
      intro placed member
      rcases mem_written.1 member with ⟨member, kept⟩
      exact each placed member kept
    have room : Value.nestingItems (writtenImages catalog values
        (definition.layout.fields index)) ≤ budget := by
      omega
    have inside := takes_parts Prod.fst (fun placed : Datum × Field Schema => placed.2.type)
      kept_each fits room placed (mem_written.2 ⟨member, kept⟩)
    exact takes_withMemory.1 (takes_found (listed _ field kept) inside)

/-- A record is one of the data of its layout, -/
theorem restores_record {fields : List (Field Schema)}
    (defined : catalog.definition? name = some definition)
    (unambiguous : definition.layout.Unambiguous) (shape : definition.layout.record? = some fields)
    (whole : values.length = fields.length)
    (listed : ∀ field ∈ fields, field.skip = false → field.type.Listed catalog)
    (each : ∀ placed ∈ values.zip fields, placed.2.skip = false →
      Restores catalog placed.1 placed.2.type) :
    Restores catalog (.record values) (.named name) := by
  have known := Layout.fields_eq_of_record shape 0
  obtain ⟨held, record⟩ := Layout.of_record shape 0 values
  rw [← known] at whole listed each
  rw [← record]
  exact restores_defined defined unambiguous held whole listed each

/-- and so is a variant of a choice. -/
theorem restores_variant {chosen : Variant Schema}
    (defined : catalog.definition? name = some definition)
    (unambiguous : definition.layout.Unambiguous)
    (shape : definition.layout.variants[index]? = some chosen)
    (whole : values.length = (chosen.fields.getD []).length)
    (listed : ∀ field ∈ chosen.fields.getD [], field.skip = false → field.type.Listed catalog)
    (each : ∀ placed ∈ values.zip (chosen.fields.getD []), placed.2.skip = false →
      Restores catalog placed.1 placed.2.type) :
    Restores catalog (.variant index values) (.named name) := by
  have known := Layout.fields_eq_of_variant shape
  obtain ⟨held, variant⟩ := Layout.of_variant shape values
  rw [← known] at whole listed each
  rw [← variant]
  exact restores_defined defined unambiguous held whole listed each

end Defined

/-! ## Any type -/

open Schema (Inside)

/-- Data of a covered type are read from their images, if they contain nothing that the wire
confuses with something else. -/
theorem restores {content : Datum} {type : Schema} (typed : HasType catalog content type)
    (covered : type.Covered catalog) (clear : content.Clear catalog type) :
    Restores catalog content type := by
  induction typed with
  | scalar holds => exact restores_scalar covered.listed holds clear
  | typeless inside => exact covered.listed.elim
  | none => exact restores_none _
  | some inside ih =>
      have item := covered.part fun _ => Inside.option
      apply restores_some item.listed (ih item (clear.part fun _ _ => .some))
      intro fits same
      apply clear.options _ _ .self
      rw [serialize_eq inside item fits, same]
  | boxed inside ih =>
      have item := covered.part fun _ => Inside.boxed
      exact restores_boxed item.listed (ih item (clear.part fun _ _ => .boxed))
  | shared inside ih =>
      have item := covered.part fun _ => Inside.shared
      exact restores_shared item.listed (ih item (clear.part fun _ _ => .shared))
  | sequence admitted inside ih =>
      have item := covered.part fun _ => Inside.sequence
      exact restores_sequence _ item.listed fun content member =>
        ih content member item (clear.part fun _ _ => .sequence member)
  | array whole inside ih =>
      have item := covered.part fun _ => Inside.array
      exact restores_array item.listed whole fun content member =>
        ih content member item (clear.part fun _ _ => .array member)
  | grid whole bounded row column inside ih =>
      have item := covered.part fun _ => Inside.grid
      exact restores_grid item.listed whole bounded row column fun content member =>
        ih content member item (clear.part fun _ _ => .grid member)
  | map admitted keys values ihKeys ihValues =>
      have key := covered.part fun _ => Inside.key
      have value := covered.part fun _ => Inside.value
      refine restores_map key.listed value.listed (fun entry member => ?_) fun entry member => ?_
      · exact ihKeys entry member key (clear.part fun _ _ => .key member)
      · exact ihValues entry member value (clear.part fun _ _ => .value member)
  | tuple whole inside ih =>
      have item {type : Schema} (member : type ∈ _) := covered.part fun _ => Inside.tuple member
      refine restores_tuple whole (fun type member => (item member).listed) ?_
      exact fun placed member => ih placed member (item (List.of_mem_zip member).2)
        (clear.part fun _ _ => .tuple member)
  | record defined shape whole inside ih =>
      obtain ⟨_, same, unambiguous⟩ := covered.listed
      obtain rfl := Option.some.inj (defined.symm.trans same)
      have field {field : Field Schema} (member : field ∈ _) (kept : field.skip = false) :=
        covered.part fun _ => Inside.record defined shape member kept
      refine restores_record defined unambiguous shape whole
        (fun _ member kept => (field member kept).listed) fun placed member kept => ?_
      exact ih placed member (field (List.of_mem_zip member).2 kept)
        (clear.part fun _ _ => .record defined shape member kept)
  | variant defined shape whole inside ih =>
      obtain ⟨_, same, unambiguous⟩ := covered.listed
      obtain rfl := Option.some.inj (defined.symm.trans same)
      have field {field : Field Schema} (member : field ∈ _) (kept : field.skip = false) :=
        covered.part fun _ => Inside.variant defined shape member kept
      refine restores_variant defined unambiguous shape whole
        (fun _ member kept => (field member kept).listed) fun placed member kept => ?_
      exact ih placed member (field (List.of_mem_zip member).2 kept)
        (clear.part fun _ _ => .variant defined shape member kept)

end MsgPack.Decode
