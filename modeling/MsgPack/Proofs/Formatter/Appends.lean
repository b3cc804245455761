import MsgPack.Proofs.Formatter.Defined
import MsgPack.Proofs.Formatter.Emits

/-!
# Writing defined types

What a computation that writes with the help of a lookup appends, and when it fails.  A record or
a variant appends the bytes that its layout makes from those of its fields, whatever formatters
the lookup gives for these.
-/

namespace MsgPack.Encode

open Session
open Datum (written)
open Decode (keyed)

variable {σ : Type} {good : σ → Prop} {fits more : Prop} {bytes : Bytes}

/-- A computation appends just these bytes, whatever was written before, if something fits, and
fails if it does not.  This is for memories of the lookup that are good, and keeps them so. -/
def Appends (good : σ → Prop) (write : Encode σ Unit) (bytes : Bytes) (fits : Prop) : Prop :=
  ∀ (writer : Writer) (memory : σ), good memory →
    match write ⟨writer, memory⟩ with
    | .ok () after => fits ∧ after.state.toList = writer.toList ++ bytes ∧ good after.memory
    | .error _ _ => ¬fits

namespace Appends

theorem congr {write : Encode σ Unit} (appends : Appends good write bytes fits)
    (same : fits ↔ more) : Appends good write bytes more := by
  rw [← propext same]
  exact appends

/-- What success tells. -/
theorem of_ok {write : Encode σ Unit} (appends : Appends good write bytes fits)
    {writer : Writer} {memory : σ} {after : Session Writer σ} (isGood : good memory)
    (ok : write ⟨writer, memory⟩ = .ok () after) :
    fits ∧ after.state.toList = writer.toList ++ bytes ∧ good after.memory := by
  have outcome := appends writer memory isGood
  rwa [ok] at outcome

theorem ok_iff {write : Encode σ Unit} (appends : Appends good write bytes fits)
    {writer : Writer} {memory : σ} (isGood : good memory) :
    (∃ after, write ⟨writer, memory⟩ = .ok () after) ↔ fits := by
  constructor
  · rintro ⟨after, ok⟩
    exact (appends.of_ok isGood ok).1
  · intro holds
    have outcome := appends writer memory isGood
    cases ends : write ⟨writer, memory⟩ with
    | ok found after => exact ⟨after, rfl⟩
    | error failure after =>
        rw [ends] at outcome
        exact absurd holds outcome

protected theorem pure : Appends good (pure () : Encode σ Unit) [] True :=
  fun _ _ isGood => ⟨trivial, (List.append_nil _).symm, isGood⟩

theorem bind {first : Encode σ Unit} {next : Unit → Encode σ Unit} {others : Bytes}
    (head : Appends good first bytes fits) (tail : ∀ found, Appends good (next found) others more) :
    Appends good (first >>= next) (bytes ++ others) (fits ∧ more) := by
  intro writer memory isGood
  have head := head writer memory isGood
  cases first' : first ⟨writer, memory⟩ with
  | error failure middle =>
      rw [first'] at head
      rw [bind_of_error first']
      exact fun both => head both.1
  | ok found middle =>
      rw [first'] at head
      obtain ⟨fit, appended, isGood⟩ := head
      have tail := tail found middle.state middle.memory isGood
      rw [bind_of_ok first']
      cases second : next found middle with
      | error failure after =>
          rw [second] at tail
          exact fun both => tail both.2
      | ok found' after =>
          rw [second] at tail
          obtain ⟨fit', appended', isGood⟩ := tail
          refine ⟨⟨fit, fit'⟩, ?_, isGood⟩
          rw [appended', appended, List.append_assoc]

/-- A formatter that the lookup gives writes the value. -/
theorem findThen {lookup : Lookup σ} {type : Schema} {formatter : Formatter}
    {next : Formatter → Encode σ Unit} (gives : lookup.Gives good type formatter)
    (appends : Appends good (next formatter) bytes fits) :
    Appends good (find lookup type >>= next) bytes fits := by
  intro writer memory isGood
  obtain ⟨given, still⟩ := gives memory isGood
  rw [bind_of_ok (find_eq_ok.2 ⟨given, rfl⟩)]
  exact appends writer _ still

/-! ## Writing without the lookup -/

theorem emit (bytes : Bytes) : Appends good (lift (Write.emit bytes)) bytes True :=
  fun _ _ isGood => ⟨trivial, Writer.toList_append _ _, isGood⟩

theorem of_fails {write : Write Unit} (fails : Write.Fails write) (exceeds : ¬fits) :
    Appends good (lift write) bytes fits := by
  intro writer memory _
  obtain ⟨failure, after, error⟩ := fails writer
  rw [lift, error]
  exact exceeds

theorem header (what : String) (encode : Nat → Bytes) (count : Nat) :
    Appends good (lift (Write.header what encode count)) (encode count) (count < 0x100000000) := by
  by_cases fits : count < 0x100000000
  · rw [Write.header_of_fits fits]
    exact (emit _).congr (iff_of_true trivial fits)
  · exact of_fails (Write.fails_header fits) fits

theorem value (value : Value) : Appends good (lift value.write) value.encoding value.Fits := by
  by_cases fits : value.Fits
  · rw [Value.write_of_fits fits]
    exact (emit _).congr (iff_of_true trivial fits)
  · exact of_fails (Value.fails_of_not_fits fits) fits

end Appends

/-! ## Fields -/

variable {lookup : Lookup σ} {catalog : Catalog} {values : List Datum}
variable {fields : List (Field Schema)} {encoding : Datum × Field Schema → Bytes}
variable {holds : Datum × Field Schema → Prop}

/-- The bytes of the value of a field, after those of its key if keys are written. -/
def entry (encoding : Datum × Field Schema → Bytes) (placed : Datum × Field Schema) :
    Bool → Bytes
  | true => (Value.string placed.2.key).encoding ++ encoding placed
  | false => encoding placed

theorem appends_entry {content : Datum} {field : Field Schema} (keyed : Bool)
    (each : Appends good (value lookup catalog field.type content) (encoding (content, field))
      (holds (content, field))) :
    Appends good
      (do
        if keyed then lift (Write.str field.key)
        datum lookup catalog content (← find lookup field.type) field.type)
      (entry encoding (content, field) keyed)
      ((keyed = true → (Value.string field.key).Fits) ∧ holds (content, field)) := by
  cases keyed with
  | true =>
      have both := (Appends.value (.string field.key)).bind fun _ => each
      exact both.congr (by simp)
  | false => exact each.congr (by simp)

/-- The fields that are written append their entries one after the other. -/
theorem appends_fieldValues (keyed : Bool) (whole : values.length = fields.length)
    (each : ∀ placed ∈ values.zip fields, placed.2.skip = false →
      Appends good (value lookup catalog placed.2.type placed.1) (encoding placed)
        (holds placed)) :
    Appends good (fieldValues lookup catalog keyed values fields)
      ((written values fields).flatMap (entry encoding · keyed))
      (∀ placed ∈ written values fields,
        (keyed = true → (Value.string placed.2.key).Fits) ∧ holds placed) := by
  induction fields generalizing values with
  | nil =>
      obtain rfl : values = [] := List.eq_nil_of_length_eq_zero whole
      exact Appends.pure.congr (iff_of_true trivial (List.forall_mem_nil _))
  | cons field fields ih =>
      cases values with
      | nil => cases whole
      | cons value values =>
          have others := ih (Nat.succ.inj whole) fun placed member =>
            each placed (List.mem_cons_of_mem _ member)
          rw [fieldValues_cons]
          cases skip : field.skip with
          | true =>
              have same : written (value :: values) (field :: fields) = written values fields := by
                simp [written, skip]
              rw [same, if_pos rfl]
              exact others
          | false =>
              have same : written (value :: values) (field :: fields) =
                  (value, field) :: written values fields := by
                simp [written, skip]
              have first := appends_entry keyed (each (value, field) List.mem_cons_self skip)
              rw [same, if_neg Bool.false_ne_true, List.flatMap_cons]
              apply (first.bind fun _ => others).congr
              rw [List.forall_mem_cons]

/-- A count and the values of the written fields. -/
theorem appends_items (whole : values.length = fields.length)
    (each : ∀ placed ∈ values.zip fields, placed.2.skip = false →
      Appends good (value lookup catalog placed.2.type placed.1) (encoding placed)
        (holds placed)) :
    Appends good
      (do
        lift (Write.arrayHeader (Field.written fields).length)
        fieldValues lookup catalog false values fields)
      (arrayHeader (keyed encoding values fields).length ++
        (keyed encoding values fields).flatMap Prod.snd)
      ((Field.written fields).length < 0x100000000 ∧
        ∀ placed ∈ written values fields, holds placed) := by
  rw [Decode.length_keyed whole, Decode.flatMap_keyed]
  apply ((Appends.header _ _ _).bind fun _ => appends_fieldValues false whole each).congr
  simp

/-- A count and the values of the written fields, each after its key. -/
theorem appends_entries (whole : values.length = fields.length)
    (each : ∀ placed ∈ values.zip fields, placed.2.skip = false →
      Appends good (value lookup catalog placed.2.type placed.1) (encoding placed)
        (holds placed)) :
    Appends good
      (do
        lift (Write.mapHeader (Field.written fields).length)
        fieldValues lookup catalog true values fields)
      (mapHeader (keyed encoding values fields).length ++
        (keyed encoding values fields).flatMap fun field =>
          (Value.string field.1).encoding ++ field.2)
      (((Field.written fields).length < 0x100000000 ∧
        ∀ field ∈ Field.written fields, (Value.string field.key).Fits) ∧
          ∀ placed ∈ written values fields, holds placed) := by
  rw [Decode.length_keyed whole, Decode.flatMap_keyed_entries]
  apply ((Appends.header _ _ _).bind fun _ => appends_fieldValues true whole each).congr
  rw [← Datum.map_snd_written whole, List.forall_mem_map, and_assoc]
  simp only [forall_const, forall_and]

/-! ## Records -/

variable {name : String} {definition : Definition Schema} {variants : List (Variant Schema)}
variable {index : Nat} {chosen : Variant Schema}

theorem datum_record (values : List Datum) :
    datum lookup catalog (.record values) .builtin (.named name) = (do
      let header ← recordHeader catalog name
      fieldValues lookup catalog header.1 values header.2) :=
  rfl

theorem datum_variant (values : List Datum) :
    datum lookup catalog (.variant index values) .builtin (.named name) = (do
      let fields ← variantHeader catalog name index
      fieldValues lookup catalog false values fields) :=
  rfl

theorem fieldValues_nil (keyed : Bool) : fieldValues lookup catalog keyed [] [] = pure () :=
  rfl

theorem appends_unit (defined : catalog.definition? name = some definition)
    (layout : definition.layout = .unit) :
    Appends good (datum lookup catalog (.record []) .builtin (.named name)) [Format.nil.code]
      True := by
  rw [datum_record, recordHeader, defined, Option.map_some, layout]
  simp only [bind_assoc, pure_bind, fieldValues_nil, bind_pure_unit]
  exact .emit _

theorem appends_array (defined : catalog.definition? name = some definition)
    (layout : definition.layout = .array fields) (whole : values.length = fields.length)
    (each : ∀ placed ∈ values.zip fields, placed.2.skip = false →
      Appends good (value lookup catalog placed.2.type placed.1) (encoding placed)
        (holds placed)) :
    Appends good (datum lookup catalog (.record values) .builtin (.named name))
      (arrayHeader (keyed encoding values fields).length ++
        (keyed encoding values fields).flatMap Prod.snd)
      ((Field.written fields).length < 0x100000000 ∧
        ∀ placed ∈ written values fields, holds placed) := by
  rw [datum_record, recordHeader, defined, Option.map_some, layout]
  simp only [bind_assoc, pure_bind]
  exact appends_items whole each

theorem appends_map (defined : catalog.definition? name = some definition)
    (layout : definition.layout = .map fields) (whole : values.length = fields.length)
    (each : ∀ placed ∈ values.zip fields, placed.2.skip = false →
      Appends good (value lookup catalog placed.2.type placed.1) (encoding placed)
        (holds placed)) :
    Appends good (datum lookup catalog (.record values) .builtin (.named name))
      (mapHeader (keyed encoding values fields).length ++
        (keyed encoding values fields).flatMap fun field =>
          (Value.string field.1).encoding ++ field.2)
      (((Field.written fields).length < 0x100000000 ∧
        ∀ field ∈ Field.written fields, (Value.string field.key).Fits) ∧
          ∀ placed ∈ written values fields, holds placed) := by
  rw [datum_record, recordHeader, defined, Option.map_some, layout]
  simp only [bind_assoc, pure_bind]
  exact appends_entries whole each

/-! ## Choices -/

theorem appends_byIndex (defined : catalog.definition? name = some definition)
    (layout : definition.layout = .byIndex variants) :
    Appends good (datum lookup catalog (.variant index []) .builtin (.named name))
      (compactInteger index) True := by
  rw [datum_variant, variantHeader, defined, Option.map_some, layout]
  simp only [bind_assoc, pure_bind, fieldValues_nil, bind_pure_unit]
  exact .emit _

theorem appends_byName (defined : catalog.definition? name = some definition)
    (layout : definition.layout = .byName variants) (shape : variants[index]? = some chosen) :
    Appends good (datum lookup catalog (.variant index []) .builtin (.named name))
      (Value.string chosen.name).encoding (Value.string chosen.name).Fits := by
  rw [datum_variant, variantHeader, defined, Option.map_some, layout]
  simp only [shape, bind_assoc, pure_bind, fieldValues_nil, bind_pure_unit]
  exact .value (.string chosen.name)

/-- A pair of the number of a variant and its payload. -/
theorem Appends.numbered {payload : Encode σ Unit} (appends : Appends good payload bytes fits) :
    Appends good
      (do
        lift (Write.arrayHeader 2)
        lift (Write.int index)
        payload)
      (arrayHeader 2 ++ (compactInteger index ++ bytes)) fits := by
  apply ((header _ _ _).bind fun _ => (emit _).bind fun _ => appends).congr
  simp

theorem appends_tagged_unit (defined : catalog.definition? name = some definition)
    (layout : definition.layout = .tagged variants) (shape : variants[index]? = some chosen)
    (payload : chosen.fields = none) :
    Appends good (datum lookup catalog (.variant index []) .builtin (.named name))
      (arrayHeader 2 ++ (compactInteger index ++ [Format.nil.code])) True := by
  rw [datum_variant, variantHeader, defined, Option.map_some, layout]
  simp only [shape, payload, bind_assoc, pure_bind, fieldValues_nil, bind_pure_unit]
  exact .numbered (.emit _)

theorem appends_tagged (defined : catalog.definition? name = some definition)
    (layout : definition.layout = .tagged variants) (shape : variants[index]? = some chosen)
    (payload : chosen.fields = some fields) (whole : values.length = fields.length)
    (each : ∀ placed ∈ values.zip fields, placed.2.skip = false →
      Appends good (value lookup catalog placed.2.type placed.1) (encoding placed)
        (holds placed)) :
    Appends good (datum lookup catalog (.variant index values) .builtin (.named name))
      (arrayHeader 2 ++ (compactInteger index ++
        (arrayHeader (keyed encoding values fields).length ++
          (keyed encoding values fields).flatMap Prod.snd)))
      ((Field.written fields).length < 0x100000000 ∧
        ∀ placed ∈ written values fields, holds placed) := by
  rw [datum_variant, variantHeader, defined, Option.map_some, layout]
  simp only [shape, payload, bind_assoc, pure_bind]
  exact .numbered (appends_items whole each)

/-! ## Any layout -/

/-- A record or a variant of a defined type appends the bytes that its layout makes from those of
its written fields. -/
theorem appends_datum (defined : catalog.definition? name = some definition)
    (plain : definition.layout.Plain) (held : definition.layout.Holds index)
    (whole : values.length = (definition.layout.fields index).length)
    (each : ∀ placed ∈ values.zip (definition.layout.fields index), placed.2.skip = false →
      Appends good (value lookup catalog placed.2.type placed.1) (encoding placed)
        (holds placed)) :
    Appends good
      (datum lookup catalog (definition.layout.datum index values) .builtin (.named name))
      (definition.layout.encoding index (keyed encoding values (definition.layout.fields index)))
      (definition.layout.Writable index ∧
        ∀ placed ∈ written values (definition.layout.fields index), holds placed) := by
  have unfilled (fields : List (Field Schema)) : ∀ placed ∈ written [] fields, holds placed :=
    fun _ member => absurd member List.not_mem_nil
  cases layout : definition.layout with
  | unit =>
      rw [layout] at whole
      obtain rfl : values = [] := List.eq_nil_of_length_eq_zero whole
      exact (appends_unit defined layout).congr (iff_of_true trivial ⟨trivial, unfilled _⟩)
  | array fields =>
      rw [layout] at whole each
      exact appends_array defined layout whole each
  | map fields =>
      rw [layout] at whole each
      exact appends_map defined layout whole each
  | byIndex variants =>
      rw [layout] at whole plain
      obtain rfl : values = [] := Variant.eq_nil_of_plain plain whole
      exact (appends_byIndex defined layout).congr (iff_of_true trivial ⟨trivial, unfilled _⟩)
  | byName variants =>
      rw [layout] at whole plain held
      obtain rfl : values = [] := Variant.eq_nil_of_plain plain whole
      have shape : variants[index]? = some variants[index] := List.getElem?_eq_getElem held
      rw [Layout.encoding, Layout.Writable, shape]
      apply (appends_byName defined layout shape).congr
      constructor
      · rintro fits
        refine ⟨?_, unfilled _⟩
        rintro _ ⟨⟩
        exact fits
      · exact fun both => both.1 _ rfl
  | tagged variants =>
      rw [layout] at whole held each
      have shape : variants[index]? = some variants[index] := List.getElem?_eq_getElem held
      rw [Layout.fields_eq_of_variant shape] at whole each ⊢
      rw [Layout.datum, Layout.encoding, Layout.Writable, shape, Option.bind_some]
      cases payload : variants[index].fields with
      | none =>
          rw [payload] at whole
          obtain rfl : values = [] := List.eq_nil_of_length_eq_zero whole
          apply (appends_tagged_unit defined layout shape payload).congr
          refine iff_of_true trivial ⟨?_, unfilled _⟩
          rintro _ ⟨⟩
      | some fields =>
          rw [payload] at whole each
          apply (appends_tagged defined layout shape payload whole each).congr
          simp

end MsgPack.Encode
