import MsgPack.Proofs.Datum.Scalar
import MsgPack.Proofs.Formatter.Coverage
import MsgPack.Proofs.Formatter.Fields

/-!
# Reading defined types from known bytes

The bytes of a record or of a variant are made from the bytes of the values of its fields, and
from nothing else but its layout.  Where the names that the layout goes by differ, the record or
the variant is read from these bytes, if the values of its written fields are read from theirs.
A structure needs a level of its own besides those that its fields need.
-/

namespace MsgPack

/-! ## What a layout says of its data -/

namespace Layout

variable {τ : Type}

/-- Whether there is a variant with a number, if the layout is that of a choice. -/
def Holds (index : Nat) : Layout τ → Prop
  | .unit | .array _ | .map _ => True
  | .byIndex variants | .byName variants | .tagged variants => index < variants.length

/-- The record with given values of its fields, or the variant with a number. -/
def datum (index : Nat) (values : List Datum) : Layout τ → Datum
  | .unit | .array _ | .map _ => .record values
  | .byIndex _ | .byName _ | .tagged _ => .variant index values

/-- How many levels a record or a variant needs besides those that its fields need. -/
def depth (index : Nat) : Layout τ → Nat
  | .unit | .byIndex _ | .byName _ => 0
  | .array _ | .map _ => 1
  | .tagged variants => if (variants[index]?.bind Variant.fields).isSome then 2 else 1

/-- Whether the names and the counts that are written have at most 32 bits of length. -/
def Writable (index : Nat) : Layout τ → Prop
  | .unit | .byIndex _ => True
  | .array fields => (Field.written fields).length < 0x100000000
  | .map fields =>
      (Field.written fields).length < 0x100000000 ∧
        ∀ field ∈ Field.written fields, (Value.string field.key).Fits
  | .byName variants =>
      ∀ chosen, variants[index]? = some chosen → (Value.string chosen.name).Fits
  | .tagged variants =>
      ∀ fields, variants[index]?.bind Variant.fields = some fields →
        (Field.written fields).length < 0x100000000

/-- The bytes of a record or of a variant, from the keys of its written fields and the bytes of
their values. -/
def encoding (index : Nat) (fields : List (String × Bytes)) : Layout τ → Bytes
  | .unit => [Format.nil.code]
  | .array _ => arrayHeader fields.length ++ fields.flatMap Prod.snd
  | .map _ =>
      mapHeader fields.length ++ fields.flatMap fun field =>
        (Value.string field.1).encoding ++ field.2
  | .byIndex _ => compactInteger index
  | .byName variants =>
      (variants[index]?.map fun chosen => (Value.string chosen.name).encoding).getD []
  | .tagged variants =>
      arrayHeader 2 ++ (compactInteger index ++
        match variants[index]?.bind Variant.fields with
        | none => [Format.nil.code]
        | some _ => arrayHeader fields.length ++ fields.flatMap Prod.snd)

/-- A layout with the fields of a record has records for its data, -/
theorem of_record {layout : Layout τ} {fields : List (Field τ)}
    (shape : layout.record? = some fields) (index : Nat) (values : List Datum) :
    layout.Holds index ∧ layout.datum index values = .record values := by
  cases layout <;> cases shape <;> exact ⟨trivial, rfl⟩

/-- and one that has a variant with a number has variants. -/
theorem of_variant {layout : Layout τ} {index : Nat} {chosen : Variant τ}
    (shape : layout.variants[index]? = some chosen) (values : List Datum) :
    layout.Holds index ∧ layout.datum index values = .variant index values := by
  have bound := (List.getElem?_eq_some_iff.1 shape).1
  cases layout with
  | unit => cases shape
  | array fields => cases shape
  | map fields => cases shape
  | _ => exact ⟨bound, rfl⟩

end Layout

namespace Decode

open Session
open Datum (length_written mem_written written)

variable {σ : Type} {lookup : Lookup σ} {catalog : Catalog} {good : σ → Prop} {levels : Nat}
variable {inner : Formatter → Schema → Decode σ Datum}
variable {bytes : Datum × Field Schema → Bytes} {result : Datum × Field Schema → Datum}
variable {values : List Datum} {fields : List (Field Schema)} {variants : List (Variant Schema)}
variable {index : Nat} {name : String}

/-! ## Records -/

/-- The fields that are written are read from their values one after the other, and those that
are not take the initial value of their type. -/
theorem takes_construct (typeName : String) (whole : values.length = fields.length) :
    Takes good levels
      (lift (Read.ofExcept (construct catalog typeName fields
        ((values.zip fields).map (slotOf result)))) : Decode σ (List Datum))
      [] ((values.zip fields).map (fieldResult catalog result)) := by
  rw [construct_slots typeName whole]
  exact .pure _

/-- The items of an array of values are at least as many bytes. -/
theorem length_le_items (filled : ∀ placed ∈ written values fields, bytes placed ≠ []) :
    (written values fields).length ≤ ((written values fields).flatMap bytes).length := by
  rw [← Nat.mul_one (written values fields).length]
  exact length_mul_le_flatMap fun placed member => List.length_pos_iff.2 (filled placed member)

/-- A record in an array is read from its fields. -/
theorem takes_ofArray {definition : Definition Schema} (layout : definition.layout = .array fields)
    (whole : values.length = fields.length)
    (count : (written values fields).length < 0x100000000)
    (filled : ∀ placed ∈ written values fields, bytes placed ≠ [])
    (each : ∀ placed ∈ values.zip fields, placed.2.skip = false →
      Takes good levels (found lookup inner placed.2.type) (bytes placed) (result placed)) :
    Takes good (levels + 1) (defined lookup catalog inner definition)
      (arrayHeader (written values fields).length ++ (written values fields).flatMap bytes)
      (.record ((values.zip fields).map (fieldResult catalog result))) := by
  simp only [defined, layout]
  apply Takes.liftThen (Read.takesBefore_arrayHeader count (length_le_items filled))
  rw [length_written whole]
  exact (takes_slotsOfArray whole each).andThen ((takes_construct _ whole).mapped _)

/-- A record in a map is read from its fields, each with its key. -/
theorem takes_ofMap {definition : Definition Schema} (layout : definition.layout = .map fields)
    (distinct : ((Field.written fields).map Field.key).Nodup)
    (whole : values.length = fields.length)
    (count : (written values fields).length < 0x100000000)
    (short : ∀ placed ∈ written values fields, (Value.string placed.2.key).Fits)
    (filled : ∀ placed ∈ written values fields, bytes placed ≠ [])
    (each : ∀ placed ∈ values.zip fields, placed.2.skip = false →
      Takes good levels (found lookup inner placed.2.type) (bytes placed) (result placed)) :
    Takes good (levels + 1) (defined lookup catalog inner definition)
      (mapHeader (written values fields).length ++ (written values fields).flatMap fun placed =>
        (Value.string placed.2.key).encoding ++ bytes placed)
      (.record ((values.zip fields).map (fieldResult catalog result))) := by
  simp only [defined, layout]
  apply (takes_slotsOfMap distinct whole count short filled each).andThen
  exact (takes_construct _ whole).mapped _

/-! ## Choices -/

/-- Where the names of variants differ, a variant is found by its name. -/
theorem findIdx?_eq_some {chosen : Variant Schema} (distinct : (variants.map Variant.name).Nodup)
    (shape : variants[index]? = some chosen) :
    variants.findIdx? (fun variant => variant.name = chosen.name) = some index := by
  rcases List.getElem?_eq_some_iff.1 shape with ⟨bound, rfl⟩
  have apart := List.pairwise_iff_getElem.1 (List.pairwise_map.1 distinct)
  refine List.findIdx?_eq_some_iff_getElem.2 ⟨bound, decide_eq_true rfl, fun before low => ?_⟩
  simpa using apart before index (Nat.lt_trans low bound) bound low

/-- The number of a variant is read from its bytes. -/
theorem takes_index (bounded : variants.length ≤ 0x100000000) (held : index < variants.length) :
    Takes good levels (lift (Read.int .u32) : Decode σ Int) (compactInteger index) index := by
  have contained : IntRange.u32.Contains index := by
    constructor
    · exact Int.natCast_nonneg _
    · exact Int.le_of_lt_add_one (Int.ofNat_lt.2 (Nat.lt_of_lt_of_le held bounded))
  exact .lift ((Read.takes_int contained).mono (Nat.zero_le levels))

/-- The variant with a number is known. -/
theorem takes_variantOf {chosen : Variant Schema} (shape : variants[index]? = some chosen) :
    Takes good levels
      (lift (Read.ofExcept (variantOf name variants (index : Int).toNat)) :
        Decode σ (Variant Schema)) [] chosen := by
  rw [variantOf, Int.toNat_natCast, shape]
  exact .pure chosen

/-- A variant is read from its number alone, if the layout writes no payload. -/
theorem takes_byIndex {definition : Definition Schema}
    (layout : definition.layout = .byIndex variants) (bounded : variants.length ≤ 0x100000000)
    (held : index < variants.length) :
    Takes good levels (defined lookup catalog inner definition) (compactInteger index)
      (.variant index []) := by
  simp only [defined, layout]
  apply (takes_index bounded held).andThen
  apply (takes_variantOf (List.getElem?_eq_getElem held)).andThen
  exact .pure (Datum.variant index [])

theorem takes_byName {definition : Definition Schema} {chosen : Variant Schema}
    (layout : definition.layout = .byName variants)
    (distinct : (variants.map Variant.name).Nodup) (shape : variants[index]? = some chosen)
    (fits : (Value.string chosen.name).Fits) :
    Takes good levels (defined lookup catalog inner definition)
      (Value.string chosen.name).encoding (.variant index []) := by
  simp only [defined, layout]
  apply (Takes.lift ((Read.takes_string fits).mono (Nat.zero_le levels))).andThen
  rw [findIdx?_eq_some distinct shape]
  exact .pure (Datum.variant index [])

/-! ## Variants with a payload -/

/-- The payload of a variant without fields is nil. -/
theorem takes_payload_unit {chosen : Variant Schema} (held : chosen.fields = none) :
    Takes good levels (payload lookup catalog inner name chosen) [Format.nil.code] [] := by
  simp only [payload, held]
  exact (Takes.lift (Read.takes_nil.mono (Nat.zero_le levels))).andThen (.pure [])

/-- The payload of a variant that has fields is read as an array of them. -/
theorem takes_payload {chosen : Variant Schema} (held : chosen.fields = some fields)
    (whole : values.length = fields.length)
    (count : (written values fields).length < 0x100000000)
    (filled : ∀ placed ∈ written values fields, bytes placed ≠ [])
    (each : ∀ placed ∈ values.zip fields, placed.2.skip = false →
      Takes good levels (found lookup inner placed.2.type) (bytes placed) (result placed)) :
    Takes good (levels + 1) (payload lookup catalog inner name chosen)
      (arrayHeader (written values fields).length ++ (written values fields).flatMap bytes)
      ((values.zip fields).map (fieldResult catalog result)) := by
  have enough := length_le_items filled
  rw [length_written whole] at count enough ⊢
  simp only [payload, held]
  apply Takes.liftThen (Scalar.takesBefore_arrayOf _ count enough)
  exact (takes_slotsOfArray whole each).andThen (takes_construct _ whole)

/-- A variant with its payload is read one level deeper than the payload. -/
theorem takes_tagged {definition : Definition Schema} {chosen : Variant Schema} {content : Bytes}
    {payloads : List Datum} (layout : definition.layout = .tagged variants)
    (bounded : variants.length ≤ 0x100000000) (shape : variants[index]? = some chosen)
    (filled : 0 < content.length)
    (takes : Takes good levels (payload lookup catalog inner definition.name chosen) content
      payloads) :
    Takes good (levels + 1) (defined lookup catalog inner definition)
      (arrayHeader 2 ++ (compactInteger index ++ content)) (.variant index payloads) := by
  have held : index < variants.length := (List.getElem?_eq_some_iff.1 shape).1
  have enough : 2 ≤ (compactInteger index ++ content).length := by
    have first := Value.length_compactInteger_pos index
    rw [List.length_append]
    omega
  simp only [defined, layout]
  apply Takes.liftThen (Scalar.takesBefore_arrayOf _ (by decide) enough)
  apply Takes.nested
  apply (takes_index bounded held).bind
  rw [← List.nil_append content]
  exact (takes_variantOf shape).bind (takes.mapped _)

/-! ## Any layout -/

/-- The bytes of the values of the written fields, each with its key. -/
def keyed (bytes : Datum × Field Schema → Bytes) (values : List Datum)
    (fields : List (Field Schema)) : List (String × Bytes) :=
  (written values fields).map fun placed => (placed.2.key, bytes placed)

theorem flatMap_keyed :
    (keyed bytes values fields).flatMap Prod.snd = (written values fields).flatMap bytes :=
  List.flatMap_map _ _ _

theorem flatMap_keyed_entries :
    ((keyed bytes values fields).flatMap fun field =>
      (Value.string field.1).encoding ++ field.2) =
      (written values fields).flatMap fun placed =>
        (Value.string placed.2.key).encoding ++ bytes placed :=
  List.flatMap_map _ _ _

/-- As many fields are written as there are to be written. -/
theorem length_keyed (whole : values.length = fields.length) :
    (keyed bytes values fields).length = (Field.written fields).length := by
  rw [keyed, List.length_map, length_written whole]

theorem mem_field_written {placed : Datum × Field Schema}
    (member : placed ∈ written values fields) : placed.2 ∈ Field.written fields := by
  rcases mem_written.1 member with ⟨member, kept⟩
  exact List.mem_filter.2 ⟨(List.of_mem_zip member).2, by rw [kept]; rfl⟩

/-- A record or a variant is read from its bytes, if the names that its layout goes by differ and
the values of its written fields are read from theirs. -/
theorem takes_defined {definition : Definition Schema}
    (unambiguous : definition.layout.Unambiguous) (held : definition.layout.Holds index)
    (writable : definition.layout.Writable index)
    (whole : values.length = (definition.layout.fields index).length)
    (filled : ∀ placed ∈ written values (definition.layout.fields index), bytes placed ≠ [])
    (each : ∀ placed ∈ values.zip (definition.layout.fields index), placed.2.skip = false →
      Takes good levels (found lookup inner placed.2.type) (bytes placed) (result placed)) :
    Takes good (levels + definition.layout.depth index) (defined lookup catalog inner definition)
      (definition.layout.encoding index (keyed bytes values (definition.layout.fields index)))
      (definition.layout.datum index
        ((values.zip (definition.layout.fields index)).map (fieldResult catalog result))) := by
  rcases unambiguous with ⟨distinct, plain⟩
  cases layout : definition.layout with
  | unit =>
      rw [layout] at whole
      obtain rfl : values = [] := List.eq_nil_of_length_eq_zero whole
      simp only [defined, layout]
      exact (Takes.lift (Read.takes_nil.mono (Nat.zero_le _))).andThen (.pure (Datum.record []))
  | array fields =>
      rw [layout] at writable whole filled each
      have whole : values.length = fields.length := whole
      have writable : (Field.written fields).length < 0x100000000 := writable
      rw [Layout.encoding, Layout.fields, flatMap_keyed, length_keyed whole]
      rw [← length_written whole] at writable ⊢
      exact takes_ofArray layout whole writable filled each
  | map fields =>
      rw [layout] at distinct writable whole filled each
      have whole : values.length = fields.length := whole
      rcases writable with ⟨count, short⟩
      rw [Layout.encoding, Layout.fields, flatMap_keyed_entries, length_keyed whole]
      rw [← length_written whole] at count ⊢
      exact takes_ofMap layout distinct whole count
        (fun placed member => short _ (mem_field_written member)) filled each
  | byIndex variants =>
      rw [layout] at distinct plain held whole
      obtain rfl : values = [] := Variant.eq_nil_of_plain plain whole
      exact takes_byIndex layout distinct held
  | byName variants =>
      rw [layout] at distinct plain held writable whole
      obtain rfl : values = [] := Variant.eq_nil_of_plain plain whole
      have shape : variants[index]? = some variants[index] := List.getElem?_eq_getElem held
      rw [Layout.encoding, shape]
      exact takes_byName layout distinct shape (writable _ shape)
  | tagged variants =>
      rw [layout] at distinct held writable whole filled each
      have shape : variants[index]? = some variants[index] := List.getElem?_eq_getElem held
      rw [Layout.Writable, shape, Option.bind_some] at writable
      rw [Layout.fields_eq_of_variant shape] at whole filled each ⊢
      rw [Layout.encoding, Layout.depth, Layout.datum, shape, Option.bind_some]
      cases payload : variants[index].fields with
      | none =>
          rw [payload] at whole
          obtain rfl : values = [] := List.eq_nil_of_length_eq_zero whole
          exact takes_tagged layout distinct shape Nat.one_pos
            (takes_payload_unit payload)
      | some fields =>
          rw [payload, Option.getD_some] at whole filled each
          have count := writable fields payload
          rw [Option.getD_some, flatMap_keyed, length_keyed whole]
          rw [← length_written whole] at count ⊢
          exact takes_tagged layout distinct shape
            (Value.length_header_pos (arrayHeader_gives count))
            (takes_payload payload whole count filled each)

end Decode

end MsgPack
