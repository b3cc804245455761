import MsgPack.Derive.Implementation
import MsgPack.Formatter.Typing
import MsgPack.Proofs.Derive.Arrays
import MsgPack.Proofs.Derive.ReadProgram
import MsgPack.Proofs.Formatter.Appends
import MsgPack.Proofs.Formatter.Emits

/-!
# Programs that write

The program that is derived to write a type does what the formatter does that follows from
the definition of the type.  With the program that reads it, this says what the code does that
is derived for an item.
-/

namespace MsgPack.Derive

open Session

variable {σ : Type} {lookup : Lookup σ} {catalog : Catalog} {type : Code → Schema}
variable {fields : List (Field Code)} {values : List Datum}

/-- The statements that write a field, after its key if `keyed`. -/
def fieldStatements (keyed : Bool) (access : Field Code × Nat → Access)
    (placed : Field Code × Nat) : List WriteStatement :=
  (if keyed then [.key placed.1.key] else []) ++ [.value placed.1.type (access placed)]

/-- The statements for the fields from a place on write the values of these fields. -/
theorem forM_fieldStatements (keyed : Bool) {access : Field Code × Nat → Access}
    (found : ∀ placed, (access placed).place = placed.2) (place : Nat)
    (whole : (values.drop place).length = fields.length) :
    forM (((fields.zipIdx place).filter fun placed => !placed.1.skip).flatMap
        (fieldStatements keyed access)) (WriteStatement.run lookup catalog type values) =
      Encode.fieldValues lookup catalog keyed (values.drop place)
        (fields.map (Field.map type)) := by
  -- A skipped field has a value too, so fields and values stay in step from place to place.
  induction fields generalizing place with
  | nil =>
      rw [List.length_eq_zero_iff.1 whole]
      rfl
  | cons field fields ih =>
      have inside : place < values.length := by
        rw [List.length_drop, List.length_cons] at whole
        omega
      have rest : values.drop place = values[place] :: values.drop (place + 1) :=
        List.drop_eq_getElem_cons inside
      rw [rest] at whole
      have others := ih (place + 1) (Nat.succ.inj whole)
      rw [rest, List.zipIdx_cons, List.map_cons, Encode.fieldValues_cons, ← others]
      cases skip : field.skip with
      | true =>
          have passed : (Field.map type field).skip = true := skip
          rw [if_pos passed, List.filter_cons_of_neg (by rw [skip]; exact Bool.false_ne_true)]
      | false =>
          have kept : ¬(Field.map type field).skip = true := by
            rw [Field.map, skip]
            exact Bool.false_ne_true
          have value : WriteStatement.run lookup catalog type values
              (.value field.type (access (field, place))) =
                Encode.value lookup catalog (type field.type) values[place] := by
            rw [WriteStatement.run, found, List.getElem?_eq_getElem inside]
          rw [if_neg kept, List.filter_cons_of_pos (by rw [skip]; rfl), List.flatMap_cons,
            List.forM_append]
          congr 1
          cases keyed <;> simp [fieldStatements, value] <;> rfl

/-- A count and the values of the fields, -/
theorem forM_writeArray {access : Field Code × Nat → Access}
    (found : ∀ placed, (access placed).place = placed.2) (whole : values.length = fields.length) :
    forM (writeArray fields access) (WriteStatement.run lookup catalog type values) = (do
      lift (Write.arrayHeader (Field.written (fields.map (Field.map type))).length)
      Encode.fieldValues lookup catalog false values (fields.map (Field.map type))) := by
  have program : writeArray fields access = .arrayHeader (writtenFields fields).length ::
      (writtenFields fields).flatMap (fieldStatements false access) := by
    rw [writeArray, List.map_eq_flatMap]
    rfl
  rw [program, List.forM_cons, length_writtenFields]
  exact congrArg _ (funext fun _ => forM_fieldStatements false found 0 whole)

/-- or of the fields after their keys. -/
theorem forM_writeMap (whole : values.length = fields.length) :
    forM (writeMap fields) (WriteStatement.run lookup catalog type values) = (do
      lift (Write.mapHeader (Field.written (fields.map (Field.map type))).length)
      Encode.fieldValues lookup catalog true values (fields.map (Field.map type))) := by
  have program : writeMap fields = .mapHeader (writtenFields fields).length ::
      (writtenFields fields).flatMap (fieldStatements true fieldOfValue) := rfl
  rw [program, List.forM_cons, length_writtenFields]
  exact congrArg _ (funext fun _ => forM_fieldStatements true (fun _ => rfl) 0 whole)

/-- The program that is derived to write a record does what the definition of the type says. -/
theorem run_writeProgram_record {name typeName : String} {layout : Layout Code}
    (defined : catalog.definition? name = some ⟨typeName, layout.mapTypes type⟩)
    (shape : layout.record? = some fields) (whole : values.length = fields.length) :
    (writeProgram layout).run lookup catalog type name (.record values) =
      Encode.datum lookup catalog (.record values) .builtin (.named name) := by
  rw [Encode.datum_record, Encode.recordHeader, defined, Option.map_some]
  cases layout with
  | unit =>
      cases shape
      rw [List.length_eq_zero_iff.1 whole]
      rfl
  | array fields =>
      cases shape
      rw [writeProgram, WriteProgram.run, forM_writeArray (fun _ => rfl) whole]
      simp only [Layout.mapTypes, bind_assoc, pure_bind]
  | map fields =>
      cases shape
      rw [writeProgram, WriteProgram.run, forM_writeMap whole]
      simp only [Layout.mapTypes, bind_assoc, pure_bind]
  | byIndex | byName | tagged => cases shape

/-- The arm of a variant is the one that bears its number. -/
theorem find?_variantArms {β : Type} (variants : List (Variant Code))
    (arm : Variant Code × VariantName → β) (index : Nat) :
    ((numberedVariants variants).map fun numbered => (numbered.2, arm numbered)).find?
        (fun arm => arm.1.index = index) =
      variants[index]?.map fun variant =>
        (⟨variant.identifier, index⟩, arm (variant, ⟨variant.identifier, index⟩)) := by
  rw [List.find?_map]
  exact (congrArg _ (find?_numbered variants index)).trans (Option.map_map _ _ _)

/-- The program that is derived to write a variant does what the definition of the type says. -/
theorem run_writeProgram_variant {name typeName : String} {layout : Layout Code} {index : Nat}
    {chosen : Variant Code}
    (defined : catalog.definition? name = some ⟨typeName, layout.mapTypes type⟩)
    (shape : layout.variants[index]? = some chosen)
    (whole : values.length = (chosen.fields.getD []).length) :
    (writeProgram layout).run lookup catalog type name (.variant index values) =
      Encode.datum lookup catalog (.variant index values) .builtin (.named name) := by
  have noFields : Encode.fieldValues lookup catalog false values [] = pure () := by
    cases values <;> rfl
  rw [Encode.datum_variant, Encode.variantHeader, defined, Option.map_some]
  cases layout with
  | unit | array | map => cases shape
  | byIndex variants =>
      have held : variants[index]? = some chosen := shape
      rw [writeProgram, WriteProgram.run, find?_variantArms, held]
      simp only [Layout.mapTypes, Option.map_some, bind_assoc, pure_bind, noFields, bind_pure_unit]
  | byName variants =>
      have held : variants[index]? = some chosen := shape
      rw [writeProgram, WriteProgram.run, find?_variantArms, held]
      simp only [Layout.mapTypes, List.getElem?_map, held, Variant.map, Option.map_some, bind_assoc,
        pure_bind, noFields, bind_pure_unit]
  | tagged variants =>
      have held : variants[index]? = some chosen := shape
      rw [writeProgram, WriteProgram.run, find?_variantArms, held]
      simp only [Layout.mapTypes, List.getElem?_map, held, Variant.map, Option.map_some, bind_assoc]
      rcases chosen with ⟨identifier, wire, _ | fields⟩
      · simp only [Option.map_none, bind_assoc, pure_bind, noFields, bind_pure_unit]
      · have payload : forM (writePayload fields).statements
            (WriteStatement.run lookup catalog type values) = (do
              lift (Write.arrayHeader (Field.written (fields.map (Field.map type))).length)
              Encode.fieldValues lookup catalog false values (fields.map (Field.map type))) :=
          forM_writeArray (fun _ => rfl) whole
        simp only [Option.map_some, bind_assoc, pure_bind, payload]

/-! ## Items -/

theorem record?_mapTypes (layout : Layout Code) :
    (layout.mapTypes type).record? = layout.record?.map (List.map (Field.map type)) := by
  cases layout <;> rfl

theorem variants_mapTypes (layout : Layout Code) :
    (layout.mapTypes type).variants = layout.variants.map (Variant.map type) := by
  cases layout <;> rfl

/-- The program that is derived to write a type does what the definition of the type says. -/
theorem run_writeProgram {name typeName : String} {layout : Layout Code} {content : Datum}
    (defined : catalog.definition? name = some ⟨typeName, layout.mapTypes type⟩)
    (typed : HasType catalog content (.named name)) :
    (writeProgram layout).run lookup catalog type name content =
      Encode.datum lookup catalog content .builtin (.named name) := by
  cases typed with
  | record known shape whole =>
      cases defined.symm.trans known
      rw [record?_mapTypes] at shape
      obtain ⟨fields, held, rfl⟩ := Option.map_eq_some_iff.1 shape
      rw [List.length_map] at whole
      exact run_writeProgram_record defined held whole
  | variant known shape whole =>
      cases defined.symm.trans known
      rw [variants_mapTypes, List.getElem?_map] at shape
      obtain ⟨chosen, held, rfl⟩ := Option.map_eq_some_iff.1 shape
      refine run_writeProgram_variant defined held (whole.trans ?_)
      cases fields : chosen.fields <;> simp [Variant.map, fields]

section Infix

variable {part code : Code}

theorem infix_braced (inside : part <:+: code) : part <:+: braced code :=
  inside.trans ⟨[.mark '\x7b'], [.mark '\x7d'], rfl⟩

theorem infix_before (inside : part <:+: code) (after : Code) : part <:+: code ++ after :=
  inside.trans (List.prefix_append code after).isInfix

theorem infix_behind (inside : part <:+: code) (before : Code) : part <:+: before ++ code :=
  inside.trans (List.suffix_append before code).isInfix

end Infix

/-- The code of a formatter has the code of both programs in it. -/
theorem Item.infix_formatterCode (item : Item) (layout : Layout Code) :
    (writeProgram layout).code item.name <:+: item.formatterCode layout ∧
      (readProgram item.name layout).code item.name <:+: item.formatterCode layout := by
  constructor
  · apply infix_behind
    apply infix_braced
    iterate 5 apply infix_before
    exact infix_behind (infix_braced List.infix_rfl) _
  · apply infix_behind
    apply infix_braced
    exact infix_behind (infix_braced List.infix_rfl) _

/-- What stands in the code of the formatter stands in all code that is derived for an item. -/
theorem Item.infix_expand {item : Item} {definition : Definition Code} {part : Code}
    (accepted : item.definition = .ok definition)
    (inside : part <:+: item.formatterCode definition.layout) :
    ∃ code, item.expand = .ok code ∧ part <:+: code :=
  ⟨_, bind_eq_ok.2 ⟨definition, accepted, rfl⟩,
    infix_before (infix_behind (infix_braced (infix_before (infix_behind inside _) _)) _) _⟩

/-- The code that is derived for an item has the code of two programs in it, and these do what the
formatter does that follows from the type that the item declares, applied to types: the one writes
every value of the type in the same way, and the other reads with the same outcome. -/
theorem Item.programs_run {path name : String} {item : Item} {arguments : List Schema}
    {definition : Definition Schema}
    (declared : item.typeDefinition path arguments = .ok definition)
    (defined : catalog.definition? name = some definition) :
    ∃ code layout, item.expand = .ok code ∧
      (writeProgram layout).code item.name <:+: code ∧
      (readProgram item.name layout).code item.name <:+: code ∧
      (∀ content, HasType catalog content (.named name) →
        (writeProgram layout).run lookup catalog (item.fieldType path arguments) name content =
          Encode.datum lookup catalog content .builtin (.named name)) ∧
      ∀ inner : Formatter → Schema → Decode σ Datum,
        (readProgram item.name layout).run lookup inner (item.fieldType path arguments) catalog
          item.name = Decode.defined lookup catalog inner definition := by
  obtain ⟨⟨typeName, layout⟩, accepted, ok⟩ := bind_eq_ok.1 declared
  obtain ⟨_, _, rfl, _⟩ := definition_cases accepted
  cases ok
  obtain ⟨writes, reads⟩ := item.infix_formatterCode layout
  obtain ⟨code, derived, written⟩ := infix_expand accepted writes
  obtain ⟨_, same, read⟩ := infix_expand accepted reads
  cases derived.symm.trans same
  exact ⟨code, layout, derived, written, read,
    fun content typed => run_writeProgram defined typed, fun _ => run_readProgram _ layout⟩

end MsgPack.Derive
