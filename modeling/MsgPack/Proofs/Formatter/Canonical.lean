import MsgPack.Formatter.Typing
import MsgPack.Proofs.Formatter.Emits
import MsgPack.Proofs.Formatter.Writing
import MsgPack.Proofs.Value.Nesting

/-!
# Typed data are written in their shortest form

Whatever the type, a datum is written as one value, and every header and every number in it in
its shortest form.  This holds for every source of formatters that gives out only those that
follow from the description of a type.  So what was written can be read as a value of any
shape, and that value is written as the same bytes again.

The cases are those of the typing of the datum.  A type must not have more variants than 32
bits can number, for the number of a variant is written like any other.
-/

namespace MsgPack

/-- The number of a date is one of 32 bits. -/
theorem Date.number_bounds {date : Date} (valid : date.Valid) :
    -0x80000000 ≤ date.number ∧ date.number < 0x80000000 := by
  rcases valid with ⟨early, late, _, december, _, day⟩
  have month : daysInMonth date.year date.month ≤ 31 := by
    unfold daysInMonth
    repeat' split
    all_goals omega
  simp only [minYear, maxYear] at early late
  -- January and February count with the year before.
  have year : -262144 ≤ (if date.month ≤ 2 then date.year - 1 else date.year) ∧
      (if date.month ≤ 2 then date.year - 1 else date.year) ≤ 262142 := by
    split <;> omega
  simp only [number, daysBeforeMonth, Int.fdiv_eq_ediv_of_nonneg _ (show (0 : Int) ≤ 400 by omega)]
  generalize (if date.month ≤ 2 then date.year - 1 else date.year) = counted at year
  constructor
  · omega
  · omega

/-- Whether 32 bits can number the variants of every choice. -/
def Catalog.Numbered (catalog : Catalog) : Prop :=
  ∀ name definition, catalog.definition? name = some definition →
    definition.layout.variants.length ≤ 0x100000000

namespace Encode

open Session

variable {σ α : Type} {lookup : Lookup σ} {catalog : Catalog}

/-! ## Scalar types -/

theorem emits_int {number : Int} (low : -0x8000000000000000 ≤ number)
    (high : number < 0x10000000000000000) : Emits 1 (lift (Write.int number) : Encode σ Unit) :=
  emits_of_eq (.ofInt number) (Value.write_ofInt low high).symm

theorem emits_timestamp (stamp : Timestamp) :
    Emits 1 (lift (Write.timestamp stamp) : Encode σ Unit) :=
  emits_value (.extension ExtensionCode.timestamp stamp.payload)

theorem emits_withResult {result : Except Error α} {write : α → Write Unit}
    (each : ∀ found, Emits 1 (lift (write found) : Encode σ Unit)) :
    Emits 1 (lift (Write.withResult result write) : Encode σ Unit) := by
  cases result with
  | ok found => exact each found
  | error failure => exact .throw failure 1

/-- A value of a scalar type is written as one value. -/
theorem emits_scalar {type : Scalar} {content : Atom} (holds : type.Holds content) :
    Emits 1 (lift (type.write content) : Encode σ Unit) := by
  by_cases covered : type.Covered
  · exact emits_of_eq _ (Scalar.write_eq covered holds)
  · cases type <;> cases content <;> first | exact holds.elim | exact absurd trivial covered | skip
    case systemTime.systemTime clock => exact emits_timestamp clock.toTimestamp
    case utcDateTime.instant moment => exact emits_withResult emits_timestamp
    case plainDateTime.instant moment => exact emits_withResult emits_timestamp
    case offsetDateTime.zoned moment =>
        exact emits_withResult fun found => emits_value (.extension ExtensionCode.dateTimeOffset _)
    case date.date day =>
        obtain ⟨low, high⟩ := Date.number_bounds holds
        exact emits_int (by omega) (by omega)
    case time.time clock =>
        rcases holds with ⟨seconds, fraction⟩
        rw [nanosecondsPerSecond] at fraction
        exact emits_of_eq _ (Scalar.pair_eq _ _ _ _ (Value.write_ofInt (by omega) (by omega))
          (Value.write_ofInt (by omega) (by omega))).symm

/-! ## One formatter -/

/-- With any described formatter a datum is written as one value. -/
def Whole (lookup : Lookup σ) (catalog : Catalog) (content : Datum) (type : Schema) : Prop :=
  ∀ formatter, Formatter.Described formatter →
    Emits 1 (datum lookup catalog content formatter type)

theorem settle_typeless (registry : Nat) (type : Schema) :
    settle lookup (.typeless registry) type = pure (.typeless registry, type) := by
  cases type <;> rfl

/-- A formatter of typeless values writes nothing but these. -/
theorem emits_registry (content : Datum) (registry : Nat) (type : Schema) :
    Emits 1 (datum lookup catalog content (.typeless registry) type) := by
  cases content with
  | typeless held item =>
      rw [datum, formatted, settle_typeless, pure_bind]
      exact emits_typeless lookup (some registry) held item _ _
  | _ =>
      rw [datum, plain, formatted, settle_typeless, pure_bind]
      exact emits_anotherType _ 1

theorem Whole.of_builtin {content : Datum} {type : Schema}
    (builtin : Emits 1 (datum lookup catalog content .builtin type)) :
    Whole lookup catalog content type := by
  intro formatter described
  cases formatter with
  | builtin => exact builtin
  | codec _ | custom _ => exact described.elim
  | typeless registry => exact emits_registry content registry type

/-! ## Wrappers -/

theorem datum_boxed (content : Datum) (type : Schema) :
    datum lookup catalog content .builtin (.boxed type) =
      find lookup type >>= fun formatter => datum lookup catalog content formatter type := by
  cases content <;> simp only [datum, plain, formatted, settle, bind_assoc]

theorem datum_shared (content : Datum) (type : Schema) :
    datum lookup catalog content .builtin (.shared type) =
      find lookup type >>= fun formatter => datum lookup catalog content formatter type := by
  cases content <;> simp only [datum, plain, formatted, settle, bind_assoc]

section Inside

variable (described : lookup.Described)

include described

/-- A value whose formatter is found is written as one value. -/
theorem Whole.found {content : Datum} {type : Schema} (whole : Whole lookup catalog content type) :
    Emits 1 (do datum lookup catalog content (← find lookup type) type) :=
  emits_findThen described whole

/-! ## Collections -/

omit described in
theorem emits_items {items : List Datum} {type : Schema}
    (each : ∀ item ∈ items, Whole lookup catalog item type) {formatter : Formatter}
    (known : formatter.Described) :
    Emits items.length (Encode.items lookup catalog items formatter type) := by
  induction items with
  | nil => exact .pure ()
  | cons item items ih =>
      have first := each item List.mem_cons_self formatter known
      have others := ih fun other member => each other (List.mem_cons_of_mem item member)
      rw [Encode.items, List.length_cons, Nat.add_comm]
      exact first.bind fun _ => others

omit described in
theorem emits_entries {entries : List (Datum × Datum)} {keyType valueType : Schema}
    (keys : ∀ entry ∈ entries, Whole lookup catalog entry.1 keyType)
    (values : ∀ entry ∈ entries, Whole lookup catalog entry.2 valueType)
    {first second : Formatter} (known : first.Described) (known' : second.Described) :
    Emits (entries.length * 2)
      (Encode.entries lookup catalog entries first keyType second valueType) := by
  induction entries with
  | nil => exact .pure ()
  | cons entry entries ih =>
      have key := keys entry List.mem_cons_self first known
      have value := values entry List.mem_cons_self second known'
      have others := ih (fun other member => keys other (List.mem_cons_of_mem entry member))
        fun other member => values other (List.mem_cons_of_mem entry member)
      have count : (entries.length + 1) * 2 = 1 + (1 + entries.length * 2) := by omega
      rw [Encode.entries, List.length_cons, count]
      exact key.bind fun _ => value.bind fun _ => others

theorem emits_collection {items : List Datum} {type : Schema}
    (each : ∀ item ∈ items, Whole lookup catalog item type) :
    Emits 1 (do
      let formatter ← find lookup type
      lift (Write.arrayHeader items.length)
      Encode.items lookup catalog items formatter type) :=
  emits_findThen described fun _ known => emits_arrayThen (emits_items each known)

/-- The items of a sequence are as many in the order in which they are written. -/
theorem emits_sequence (kind : SequenceKind) {items : List Datum} {type : Schema}
    (each : ∀ item ∈ items, Whole lookup catalog item type) :
    Emits 1 (datum lookup catalog (.list items) .builtin (.sequence kind type)) := by
  rw [datum_sequence]
  exact emits_collection described fun item member => each item (SequenceKind.mem_elements.1 member)

theorem emits_grid {rows columns : Nat} {items : List Datum} {type : Schema}
    (row : rows < 0x10000000000000000) (column : columns < 0x10000000000000000)
    (each : ∀ item ∈ items, Whole lookup catalog item type) :
    Emits 1 (do
      let formatter ← find lookup type
      lift (Write.arrayHeader 3)
      lift (Write.int rows)
      lift (Write.int columns)
      lift (Write.arrayHeader items.length)
      Encode.items lookup catalog items formatter type) := by
  apply emits_findThen described
  intro formatter known
  apply emits_arrayThen
  have first : Emits 1 (lift (Write.int rows) : Encode σ Unit) := emits_int (by omega) (by omega)
  have second : Emits 1 (lift (Write.int columns) : Encode σ Unit) :=
    emits_int (by omega) (by omega)
  exact first.bind fun _ => second.bind fun _ => emits_arrayThen (emits_items each known)

theorem emits_map {entries : List (Datum × Datum)} {keyType valueType : Schema}
    (keys : ∀ entry ∈ entries, Whole lookup catalog entry.1 keyType)
    (values : ∀ entry ∈ entries, Whole lookup catalog entry.2 valueType) :
    Emits 1 (do
      let first ← find lookup keyType
      let second ← find lookup valueType
      lift (Write.mapHeader entries.length)
      Encode.entries lookup catalog entries first keyType second valueType) :=
  emits_findThen described fun _ known => emits_findThen described fun _ known' =>
    emits_mapThen (emits_entries keys values known known')

theorem emits_tuple {items : List Datum} {types : List Schema}
    (counted : items.length = types.length)
    (each : ∀ placed ∈ items.zip types, Whole lookup catalog placed.1 placed.2) :
    Emits types.length (tuple lookup catalog items types) := by
  induction items generalizing types with
  | nil =>
      rw [← counted]
      exact .pure ()
  | cons item items ih =>
      cases types with
      | nil => cases counted
      | cons type types =>
          have first := Whole.found described (each (item, type) List.mem_cons_self)
          have others := ih (Nat.succ.inj counted) fun placed member =>
            each placed (List.mem_cons_of_mem _ member)
          rw [tuple, ← bind_assoc, List.length_cons, Nat.add_comm]
          exact first.bind fun _ => others

/-! ## Defined types -/

/-- A field that is written is one value, or two if its key comes before it. -/
theorem emits_field {value : Datum} {field : Field Schema}
    (whole : Whole lookup catalog value field.type) (keyed : Bool) :
    Emits (if keyed then 2 else 1) (do
      if keyed then lift (Write.str field.key)
      datum lookup catalog value (← find lookup field.type) field.type) := by
  have found := Whole.found described whole
  cases keyed with
  | false => exact found
  | true =>
      have key : Emits 1 (lift (Write.str field.key) : Encode σ Unit) :=
        emits_value (.string field.key)
      exact key.bind fun _ => found

/-- The fields that are written, in order. -/
theorem emits_fieldValues {values : List Datum} {fields : List (Field Schema)}
    (counted : values.length = fields.length)
    (each : ∀ placed ∈ values.zip fields, Whole lookup catalog placed.1 placed.2.type)
    (keyed : Bool) :
    Emits ((Field.written fields).length * if keyed then 2 else 1)
      (fieldValues lookup catalog keyed values fields) := by
  induction values generalizing fields with
  | nil =>
      obtain rfl := List.eq_nil_of_length_eq_zero counted.symm
      rw [Field.written, List.filter_nil, List.length_nil, Nat.zero_mul]
      exact .pure ()
  | cons value values ih =>
      cases fields with
      | nil => cases counted
      | cons field fields =>
          have first := emits_field described (each (value, field) List.mem_cons_self) keyed
          have others := ih (Nat.succ.inj counted) fun placed member =>
            each placed (List.mem_cons_of_mem _ member)
          rw [fieldValues_cons, Field.written, List.filter_cons]
          cases field.skip with
          | true => exact others
          | false =>
              rw [Bool.not_false, if_pos rfl, List.length_cons, Nat.succ_mul, Nat.add_comm]
              exact first.bind fun _ => others

theorem emits_plainFields {values : List Datum} {fields : List (Field Schema)}
    (counted : values.length = fields.length)
    (each : ∀ placed ∈ values.zip fields, Whole lookup catalog placed.1 placed.2.type) :
    Emits (Field.written fields).length (fieldValues lookup catalog false values fields) := by
  have fields := emits_fieldValues described counted each false
  rwa [if_neg Bool.false_ne_true, Nat.mul_one] at fields

theorem emits_keyedFields {values : List Datum} {fields : List (Field Schema)}
    (counted : values.length = fields.length)
    (each : ∀ placed ∈ values.zip fields, Whole lookup catalog placed.1 placed.2.type) :
    Emits ((Field.written fields).length * 2) (fieldValues lookup catalog true values fields) := by
  have fields := emits_fieldValues described counted each true
  rwa [if_pos rfl] at fields

omit described in
theorem emits_noFields (keyed : Bool) (values : List Datum) :
    Emits 0 (fieldValues lookup catalog keyed values []) := by
  cases values <;> exact .pure ()

variable {name : String} {definition : Definition Schema}

theorem emits_record {fields : List (Field Schema)} {values : List Datum}
    (defined : catalog.definition? name = some definition)
    (shape : definition.layout.record? = some fields) (counted : values.length = fields.length)
    (each : ∀ placed ∈ values.zip fields, Whole lookup catalog placed.1 placed.2.type) :
    Emits 1 (datum lookup catalog (.record values) .builtin (.named name)) := by
  have unfolded : datum lookup catalog (.record values) .builtin (.named name) =
      recordHeader catalog name >>= fun header =>
        fieldValues lookup catalog header.1 values header.2 := rfl
  rw [unfolded, recordHeader, defined, Option.map_some]
  cases layout : definition.layout with
  | unit =>
      simp only [bind_assoc, pure_bind]
      exact (emits_value .nil).bind fun _ => emits_noFields false values
  | array fields' =>
      rw [layout] at shape
      cases shape
      simp only [bind_assoc, pure_bind]
      exact emits_arrayThen (emits_plainFields described counted each)
  | map fields' =>
      rw [layout] at shape
      cases shape
      simp only [bind_assoc, pure_bind]
      exact emits_mapThen (emits_keyedFields described counted each)
  | _ =>
      rw [layout] at shape
      cases shape

omit described in
theorem emits_index {variants : List (Variant Schema)} {index : Nat} {chosen : Variant Schema}
    (bounded : variants.length ≤ 0x100000000) (shape : variants[index]? = some chosen) :
    Emits 1 (lift (Write.int index) : Encode σ Unit) :=
  emits_of_eq (.ofInt index) (write_index bounded shape).symm

theorem emits_variant {index : Nat} {chosen : Variant Schema} {values : List Datum}
    (numbered : catalog.Numbered) (defined : catalog.definition? name = some definition)
    (shape : definition.layout.variants[index]? = some chosen)
    (counted : values.length = (chosen.fields.getD []).length)
    (each : ∀ placed ∈ values.zip (chosen.fields.getD []),
      Whole lookup catalog placed.1 placed.2.type) :
    Emits 1 (datum lookup catalog (.variant index values) .builtin (.named name)) := by
  have unfolded : datum lookup catalog (.variant index values) .builtin (.named name) =
      variantHeader catalog name index >>= fun fields =>
        fieldValues lookup catalog false values fields := rfl
  have number : Emits 1 (lift (Write.int index) : Encode σ Unit) :=
    emits_index (numbered name definition defined) shape
  have none : Emits 0 (fieldValues lookup catalog false values []) := emits_noFields false values
  rw [unfolded, variantHeader, defined, Option.map_some]
  cases layout : definition.layout with
  | byIndex variants =>
      simp only [bind_assoc, pure_bind]
      exact number.bind fun _ => none
  | byName variants =>
      rw [layout] at shape
      have shape : variants[index]? = some chosen := shape
      simp only [shape, bind_assoc, pure_bind]
      exact (emits_value (.string chosen.name)).bind fun _ => none
  | tagged variants =>
      rw [layout] at shape
      have shape : variants[index]? = some chosen := shape
      cases held : chosen.fields with
      | none =>
          simp only [shape, held, bind_assoc, pure_bind]
          exact emits_arrayThen (number.bind fun _ => (emits_value .nil).bind fun _ => none)
      | some fields =>
          rw [held, Option.getD_some] at counted each
          simp only [shape, held, bind_assoc, pure_bind]
          exact emits_arrayThen (number.bind fun _ =>
            emits_arrayThen (emits_plainFields described counted each))
  | _ =>
      rw [layout] at shape
      cases shape

/-! ## Any type -/

/-- A datum of a type is written as one value. -/
theorem whole_of_hasType (numbered : catalog.Numbered) {content : Datum} {type : Schema}
    (typed : HasType catalog content type) : Whole lookup catalog content type := by
  induction typed with
  | scalar holds => exact .of_builtin (emits_scalar holds)
  | typeless inside => exact .of_builtin (emits_typeless lookup none _ _ _ _)
  | none => exact .of_builtin (emits_value .nil)
  | some inside ih => exact .of_builtin (ih.found described)
  | boxed inside ih =>
      apply Whole.of_builtin
      rw [datum_boxed]
      exact ih.found described
  | shared inside ih =>
      apply Whole.of_builtin
      rw [datum_shared]
      exact ih.found described
  | sequence admitted inside ih => exact .of_builtin (emits_sequence described _ ih)
  | array whole inside ih => exact .of_builtin (emits_collection described ih)
  | grid whole bounded row column inside ih =>
      exact .of_builtin (emits_grid described row column ih)
  | map admitted keys values ihKeys ihValues =>
      exact .of_builtin (emits_map described ihKeys ihValues)
  | tuple counted inside ih =>
      exact .of_builtin (emits_arrayThen (emits_tuple described counted ih))
  | record defined shape counted inside ih =>
      exact .of_builtin (emits_record described defined shape counted ih)
  | variant defined shape counted inside ih =>
      exact .of_builtin (emits_variant described numbered defined shape counted ih)

end Inside

/-- What is written of a datum of a type is well-formed.  By any reader that has as many
levels left as it is nested deep, it is read as one value of any shape, up to what follows it,
and writing this value gives the same bytes. -/
theorem value_canonical (described : lookup.Described) (numbered : catalog.Numbered)
    {content : Datum} {type : Schema} (typed : HasType catalog content type)
    {writer written : Writer} {memory kept : σ}
    (ok : value lookup catalog type content ⟨writer, memory⟩ = .ok () ⟨written, kept⟩) :
    ∃ bytes found, written.toList = writer.toList ++ bytes ∧
      (∃ levels, WellFormed levels 1 bytes) ∧ Write.run (Value.write found) = .ok bytes ∧
        ∀ (reader : Reader) (rest : Bytes), reader.cursor.unread = bytes ++ rest →
          WellFormed reader.budget 1 bytes →
            ∃ after, Value.read reader = .ok found after ∧ after.cursor.unread = rest := by
  obtain ⟨values, counted, fits, appended⟩ :=
    (whole_of_hasType described numbered typed).found described ok
  rcases List.length_eq_one_iff.1 counted with ⟨single, rfl⟩
  rcases fits with ⟨fits, _⟩
  have rewritten := Value.run_of_fits (Value.fits_normal fits)
  rw [Value.encoding_normal] at rewritten
  rw [Value.encodingItems, Value.encodingItems, List.append_nil] at appended
  refine ⟨single.encoding, single.normal, appended, ⟨_, Value.wellFormed_encoding fits⟩,
    rewritten, ?_⟩
  intro reader rest next shallow
  have room := (Value.wellFormed_iff fits _).1 shallow
  obtain ⟨after, ok, passed⟩ := Value.takes_read fits reader rest next room
  exact ⟨after, ok, passed.unread_eq next⟩

/-- A list of one typeless number, read as a value of any shape and written again. -/
theorem value_canonical_typeless :
    ∃ found after, Value.read (.ofCursor (.ofBytes
        [0x91, 0xc7, 0x07, 0x64, 0xa3, 0x75, 0x31, 0x36, 0xcd, 0x01, 0x2c]) 1) = .ok found after ∧
      after.cursor.unread = [] ∧ Write.run (Value.write found) =
        .ok [0x91, 0xc7, 0x07, 0x64, 0xa3, 0x75, 0x31, 0x36, 0xcd, 0x01, 0x2c] := by
  have typed : HasType .empty (.list [.typeless (.scalar (.int .u16)) (.atom (.int 300))])
      (.sequence .list .typeless) := by
    refine .sequence trivial fun item member => ?_
    rw [List.mem_singleton.1 member]
    exact .typeless (.scalar ⟨by decide, by decide⟩)
  have numbered : Catalog.empty.Numbered := fun _ _ defined => by cases defined
  have written : value (.standard .empty) .empty (.sequence .list .typeless)
      (.list [.typeless (.scalar (.int .u16)) (.atom (.int 300))]) ⟨.empty, ()⟩ =
        .ok () ⟨Writer.empty.append
          [0x91, 0xc7, 0x07, 0x64, 0xa3, 0x75, 0x31, 0x36, 0xcd, 0x01, 0x2c], ()⟩ := rfl
  obtain ⟨bytes, found, appended, _, rewritten, reads⟩ :=
    value_canonical (Lookup.described_standard .empty) numbered typed written
  rw [Writer.toList_append] at appended
  obtain rfl := List.append_cancel_left appended
  have opens : Opens [0x91] 1 := .fixArray (by decide) (by decide)
  have item : Leaf (0xc7 :: [0x07] ++ [0x64, 0xa3, 0x75, 0x31, 0x36, 0xcd, 0x01, 0x2c]) :=
    .sized .ext8 rfl
  obtain ⟨after, ok, unread⟩ := reads (.ofCursor (.ofBytes
    [0x91, 0xc7, 0x07, 0x64, 0xa3, 0x75, 0x31, 0x36, 0xcd, 0x01, 0x2c]) 1) [] rfl
      (.opened opens (item.wellFormed 0) .done)
  exact ⟨found, after, ok, unread, rewritten⟩

end Encode

end MsgPack
