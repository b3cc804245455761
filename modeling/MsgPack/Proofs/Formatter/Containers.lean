import MsgPack.Proofs.Formatter.Writing

/-!
# Reading containers of known bytes

What the formatters of containers make of the bytes of their images, when the types inside
are read from theirs.  What reads the inside is left open, and so is what its results are.
-/

namespace MsgPack.Decode

open Session

variable {catalog : Catalog} {inner : Formatter → Schema → Decode Unit Datum} {levels : Nat}

/-- A value of a type is read from the bytes of its image, once the memory is dropped. -/
abbrev TakesImage (levels : Nat) (inner : Formatter → Schema → Decode Unit Datum)
    (type : Schema) (image : Value) (result : Datum) : Prop :=
  Read.Takes levels (withMemory () (inner .builtin type)) image.encoding result

theorem takes_found {type : Schema} {image : Value} {result : Datum}
    (listed : type.Listed catalog) (takes : TakesImage levels inner type image result) :
    Read.Takes levels (withMemory () (found (.standard catalog) inner type)) image.encoding
      result := by
  rw [found, withMemory_bind, withMemory_find, listed.known, pure_bind, pure_bind]
  exact takes

/-! ## Collections -/

section Collections

variable {image : Datum → Value} {result : Datum → Datum}

/-- The items of a collection are read one level deeper. -/
theorem takes_collection {items : List Datum} {type : Schema} (listed : type.Listed catalog)
    (fits : (Value.array (items.map image)).Fits)
    (each : ∀ item ∈ items, TakesImage levels inner type (image item) (result item)) :
    Read.Takes (levels + 1) (withMemory () (collection (.standard catalog) inner type))
      (Value.array (items.map image)).encoding (items.map result) := by
  rcases fits with ⟨count, fits⟩
  have enough := Value.length_le_encodingItems fits
  simp only [collection, withMemory_bind, withMemory_lift, withMemory_find, listed.known,
    withMemory_nested, withMemory_times, pure_bind]
  rw [Value.encoding]
  apply Read.takes_arrayHeaderThen count enough
  apply Read.Takes.nested
  rw [Value.encodingItems_eq_flatMap, List.flatMap_map, List.length_map]
  exact Read.Takes.times each

theorem takes_array {items : List Datum} {type : Schema} {length : Nat}
    (listed : type.Listed catalog) (whole : items.length = length)
    (fits : (Value.array (items.map image)).Fits)
    (each : ∀ item ∈ items, TakesImage levels inner type (image item) (result item)) :
    Read.Takes (levels + 1) (withMemory () (array (.standard catalog) inner length type))
      (Value.array (items.map image)).encoding (.list (items.map result)) := by
  rw [array, withMemory_bind]
  apply (takes_collection listed fits each).andThen
  rw [if_pos ((List.length_map _).trans whole), withMemory_pure]
  exact .pure _

/-- A two-dimensional array is read two levels deeper than its items. -/
theorem takes_grid {items : List Datum} {type : Schema} {rows columns : Nat}
    (listed : type.Listed catalog) (whole : items.length = rows * columns)
    (bounded : rows * columns < 0x10000000000000000) (row : rows < 0x10000000000000000)
    (column : columns < 0x10000000000000000) (fits : (Value.array (items.map image)).Fits)
    (each : ∀ item ∈ items, TakesImage levels inner type (image item) (result item)) :
    Read.Takes (levels + 1 + 1) (withMemory () (grid (.standard catalog) inner type))
      (Value.array [.ofInt rows, .ofInt columns, .array (items.map image)]).encoding
      (.grid rows columns (items.map result)) := by
  have counted (count : Nat) (bound : count < 0x10000000000000000) :
      IntRange.usize.Contains count := by
    constructor
    · exact Int.natCast_nonneg _
    · exact Int.le_of_lt_add_one (Int.ofNat_lt.2 bound)
  have inside : Read.Takes (levels + 1) (do
        let rows ← Read.size .usize
        let columns ← Read.size .usize
        return (rows.toNat, columns.toNat,
          ← withMemory () (collection (.standard catalog) inner type)))
      ((Value.ofInt rows).encoding ++ ((Value.ofInt columns).encoding ++
        (Value.array (items.map image)).encoding)) (rows, columns, items.map result) := by
    have first := (Scalar.takes_size (counted rows row)).mono (Nat.zero_le (levels + 1))
    have second := (Scalar.takes_size (counted columns column)).mono (Nat.zero_le (levels + 1))
    have third := (takes_collection listed fits each).mapped fun items => (rows, columns, items)
    exact first.bind (second.bind third)
  have encoded : (Value.array [.ofInt rows, .ofInt columns, .array (items.map image)]).encoding =
      MsgPack.arrayHeader 3 ++ ((Value.ofInt rows).encoding ++ ((Value.ofInt columns).encoding ++
        (Value.array (items.map image)).encoding)) := by
    simp only [Value.encoding, Value.encodingItems, List.length_cons, List.length_nil,
      List.append_nil]
  have first := Value.length_encoding_pos (Value.fits_ofInt rows)
  have second := Value.length_encoding_pos (Value.fits_ofInt columns)
  have third := Value.length_encoding_pos fits
  have complete : (items.map result).length = rows * columns := by
    rw [List.length_map, whole]
  rw [encoded, grid, withMemory_bind, withMemory_lift]
  apply Scalar.takes_arrayOfThen (by decide)
  · simp only [List.length_append]
    omega
  simp only [withMemory_bind, withMemory_lift, withMemory_nested, withMemory_pure]
  apply inside.nested.andThen
  simp only [Grid.ofItems, if_neg (Nat.not_le.2 bounded), dif_pos complete, Read.ofExcept,
    pure_bind]
  exact .pure _

end Collections

/-- The entries of a map are read one level deeper. -/
theorem takes_entries {entries : List (Datum × Datum)} {keyType valueType : Schema}
    {image : Datum × Datum → Value × Value} {result : Datum × Datum → Datum × Datum}
    (key : keyType.Listed catalog) (value : valueType.Listed catalog)
    (fits : (Value.map (entries.map image)).Fits)
    (keys : ∀ entry ∈ entries, TakesImage levels inner keyType (image entry).1 (result entry).1)
    (values : ∀ entry ∈ entries,
      TakesImage levels inner valueType (image entry).2 (result entry).2) :
    Read.Takes (levels + 1)
      (withMemory () (Decode.entries (.standard catalog) inner keyType valueType))
      (Value.map (entries.map image)).encoding (entries.map result) := by
  rcases fits with ⟨count, fits⟩
  have enough := Value.length_le_encodingEntries fits
  simp only [Decode.entries, withMemory_bind, withMemory_lift, withMemory_find, key.known,
    value.known, withMemory_nested, withMemory_times, withMemory_pure, pure_bind]
  rw [Value.encoding]
  apply Read.takes_mapHeaderThen count enough
  apply Read.Takes.nested
  rw [Value.encodingEntries_eq_flatMap, List.flatMap_map, List.length_map]
  exact Read.Takes.times fun entry member =>
    (keys entry member).bind ((values entry member).mapped _)

/-- Items of given types are read one after the other. -/
theorem takes_each {items : List Datum} {types : List Schema} {image : Datum × Schema → Value}
    {result : Datum × Schema → Datum} (whole : items.length = types.length)
    (listed : ∀ type ∈ types, type.Listed catalog)
    (each : ∀ placed ∈ items.zip types,
      TakesImage levels inner placed.2 (image placed) (result placed)) :
    Read.Takes levels (withMemory () (Decode.each (.standard catalog) inner types))
      (Value.encodingItems ((items.zip types).map image)) ((items.zip types).map result) := by
  induction types generalizing items with
  | nil =>
      rw [List.zip_nil_right]
      exact .pure []
  | cons type types ih =>
      cases items with
      | nil => cases whole
      | cons item items =>
          have known := listed type List.mem_cons_self
          have first := takes_found known (each (item, type) List.mem_cons_self)
          have others := ih (Nat.succ.inj whole)
            (fun other member => listed other (List.mem_cons_of_mem type member))
            fun placed member => each placed (List.mem_cons_of_mem _ member)
          simp only [Decode.each, withMemory_bind, withMemory_pure]
          exact first.bind (others.mapped _)

end MsgPack.Decode
