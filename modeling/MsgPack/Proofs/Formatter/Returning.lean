import MsgPack.Proofs.Formatter.Appends
import MsgPack.Proofs.Formatter.Recursion

/-!
# Defined types there and back

A datum of a type comes back if what is written of it is read as it again.  A record or a
variant comes back if the values of its written fields do, whatever formatters the lookup gives
for their types; a field that is never written takes the initial value of its type.
-/

namespace MsgPack

open Datum (mem_written written)
open Decode (fieldResult keyed)

variable {σ : Type} {lookup : Lookup σ} {catalog : Catalog} {good : σ → Prop} {levels : Nat}

/-- A datum of a type is written just if something fits, as some bytes that do not depend on what
was written before.  These are then read as a result, wherever they stand and whatever follows
them, by any reader that may open so many structures.  All this is for memories of the lookup that
are good, and keeps them so. -/
def ComesBack (lookup : Lookup σ) (catalog : Catalog) (good : σ → Prop) (levels : Nat)
    (type : Schema) (content result : Datum) (fits : Prop) : Prop :=
  ∃ bytes, Encode.Appends good (Encode.value lookup catalog type content) bytes fits ∧
    (fits → bytes ≠ [] ∧ Decode.Takes good levels (Decode.value lookup catalog type) bytes result)

theorem ComesBack.congr {type : Schema} {content result : Datum} {fits more : Prop}
    (back : ComesBack lookup catalog good levels type content result fits) (same : fits ↔ more) :
    ComesBack lookup catalog good levels type content result more := by
  rw [← propext same]
  exact back

namespace Decode

variable {name : String} {definition : Definition Schema} {index : Nat} {values : List Datum}
variable {bytes : Datum × Field Schema → Bytes} {result : Datum × Field Schema → Datum}

/-- A defined type is read by its definition, and the values of its fields as any values are. -/
theorem datum_named (steady : lookup.Steady)
    (defined : catalog.definition? name = some definition) :
    datum lookup catalog .builtin (.named name) =
      Decode.defined lookup catalog (datum lookup catalog) definition := by
  rw [datum_eq steady (delegates_shaped (.named name)), layer, formatted, shaped, defined]

/-- A record or a variant of a type that the lookup gives its own formatter for. -/
theorem takes_value (steady : lookup.Steady)
    (defined : catalog.definition? name = some definition)
    (own : lookup.Gives good (.named name) .builtin)
    (unambiguous : definition.layout.Unambiguous) (held : definition.layout.Holds index)
    (writable : definition.layout.Writable index)
    (whole : values.length = (definition.layout.fields index).length)
    (filled : ∀ placed ∈ written values (definition.layout.fields index), bytes placed ≠ [])
    (each : ∀ placed ∈ values.zip (definition.layout.fields index), placed.2.skip = false →
      Takes good levels (value lookup catalog placed.2.type) (bytes placed) (result placed)) :
    Takes good (levels + definition.layout.depth index) (value lookup catalog (.named name))
      (definition.layout.encoding index (keyed bytes values (definition.layout.fields index)))
      (definition.layout.datum index
        ((values.zip (definition.layout.fields index)).map (fieldResult catalog result))) := by
  apply Takes.findThen own
  rw [datum_named steady defined]
  exact takes_defined unambiguous held writable whole filled each

end Decode

/-! ## Scalar types -/

/-- A value of a covered scalar type comes back, if values of any shape in it are normal. -/
theorem comesBack_scalar {type : Scalar} {content : Atom} (covered : type.Covered)
    (holds : type.Holds content) (own : lookup.Gives good (.scalar type) .builtin)
    (normal : ∀ value, content = .value value → value.normal = value) :
    ComesBack lookup catalog good (type.image content).nesting (.scalar type) (.atom content)
      (.atom content.restored) (type.image content).Fits := by
  have write : Encode.datum lookup catalog (.atom content) .builtin (.scalar type) =
      Session.lift (type.image content).write := by
    rw [← Scalar.write_eq covered holds]
    rfl
  have read : Decode.datum lookup catalog .builtin (.scalar type) =
      (do return .atom (← Session.lift type.read)) := by
    funext session
    unfold Decode.datum
    cases session.state.budget <;> rfl
  refine ⟨(type.image content).encoding, .findThen own ?_, fun fits => ⟨?_, .findThen own ?_⟩⟩
  · rw [write]
    exact .value (type.image content)
  · exact List.length_pos_iff.1 (Value.length_encoding_pos fits)
  · rw [read]
    exact (Decode.Takes.lift (Scalar.takes_image covered holds fits normal)).mapped _

/-! ## There and back -/

variable {name : String} {definition : Definition Schema} {index : Nat} {values : List Datum}
variable {result : Datum × Field Schema → Datum} {fits : Datum × Field Schema → Prop}

/-- The bytes of a record or a variant that can be written are some. -/
theorem Layout.length_encoding_pos {layout : Layout Schema} (held : layout.Holds index)
    (writable : layout.Writable index) (whole : values.length = (layout.fields index).length)
    (bytes : Datum × Field Schema → Bytes) :
    0 < (layout.encoding index (keyed bytes values (layout.fields index))).length := by
  have count : (keyed bytes values (layout.fields index)).length =
      (Field.written (layout.fields index)).length := Decode.length_keyed whole
  cases layout with
  | unit => exact Nat.one_pos
  | array fields =>
      rw [encoding, count]
      exact Value.length_header_pos (arrayHeader_gives writable)
  | map fields =>
      rw [encoding, count]
      exact Value.length_header_pos (mapHeader_gives writable.1)
  | byIndex variants => exact Value.length_compactInteger_pos index
  | byName variants =>
      have shape : variants[index]? = some variants[index] := List.getElem?_eq_getElem held
      rw [encoding, shape]
      exact Value.length_encoding_pos (writable _ shape)
  | tagged variants => exact Value.length_header_pos (arrayHeader_gives (by decide))

/-- A record or a variant comes back if the values of its written fields do.  It can be written if
they can, and if the counts and the names that are written have at most 32 bits of length. -/
theorem comesBack_defined (steady : lookup.Steady)
    (defined : catalog.definition? name = some definition)
    (own : lookup.Gives good (.named name) .builtin)
    (unambiguous : definition.layout.Unambiguous) (held : definition.layout.Holds index)
    (whole : values.length = (definition.layout.fields index).length)
    (each : ∀ placed ∈ values.zip (definition.layout.fields index), placed.2.skip = false →
      ComesBack lookup catalog good levels placed.2.type placed.1 (result placed) (fits placed)) :
    ComesBack lookup catalog good (levels + definition.layout.depth index) (.named name)
      (definition.layout.datum index values)
      (definition.layout.datum index
        ((values.zip (definition.layout.fields index)).map (fieldResult catalog result)))
      (definition.layout.Writable index ∧
        ∀ placed ∈ written values (definition.layout.fields index), fits placed) := by
  let bytes (placed : Datum × Field Schema) : Bytes := Classical.epsilon fun bytes =>
    Encode.Appends good (Encode.value lookup catalog placed.2.type placed.1) bytes (fits placed) ∧
      (fits placed → bytes ≠ [] ∧
        Decode.Takes good levels (Decode.value lookup catalog placed.2.type) bytes (result placed))
  have known : ∀ placed ∈ values.zip (definition.layout.fields index), placed.2.skip = false →
      Encode.Appends good (Encode.value lookup catalog placed.2.type placed.1) (bytes placed)
          (fits placed) ∧
        (fits placed → bytes placed ≠ [] ∧
          Decode.Takes good levels (Decode.value lookup catalog placed.2.type) (bytes placed)
            (result placed)) :=
    fun placed member kept => Classical.epsilon_spec (each placed member kept)
  refine ⟨definition.layout.encoding index (keyed bytes values (definition.layout.fields index)),
    .findThen own ?_, ?_⟩
  · exact Encode.appends_datum defined unambiguous.plain held whole fun placed member kept =>
      (known placed member kept).1
  · rintro ⟨writable, all⟩
    have takes (placed : Datum × Field Schema)
        (member : placed ∈ written values (definition.layout.fields index)) :=
      (known placed (mem_written.1 member).1 (mem_written.1 member).2).2 (all placed member)
    refine ⟨List.length_pos_iff.1 (Layout.length_encoding_pos held writable whole bytes), ?_⟩
    apply Decode.takes_value steady defined own unambiguous held writable whole
    · exact fun placed member => (takes placed member).1
    · exact fun placed member kept => (takes placed (mem_written.2 ⟨member, kept⟩)).2

end MsgPack
