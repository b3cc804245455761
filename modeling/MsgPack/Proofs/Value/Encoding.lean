import MsgPack.Proofs.Wire.Emission
import MsgPack.Proofs.Wire.Forms
import MsgPack.Value.Normal
import MsgPack.Value.Wire

/-!
# The bytes of values

The bytes of a value, given apart from the writer.  Writing a value appends them if all its
lengths and counts fit, and fails otherwise.  Every value has at least one byte, so an array
has at least as many bytes as items, and a map twice as many as entries.
-/

namespace MsgPack.Value

/-! ## The bytes of a value -/

mutual

/-- The bytes that a value is written as. -/
def encoding : Value → Bytes
  | nil => [Format.nil.code]
  | bool truth => [if truth then Format.true.code else Format.false.code]
  | int word => compactInteger word.toInt
  | uint word => compactInteger word.toNat
  | float32 bits => Format.float32.code :: BigEndian.encode 4 bits.toNat
  | float64 bits => Format.float64.code :: BigEndian.encode 8 bits.toNat
  | string text => strHeader (Utf8.encode text).length ++ Utf8.encode text
  | binary bytes => binHeader bytes.length ++ bytes
  | array items => arrayHeader items.length ++ encodingItems items
  | map entries => mapHeader entries.length ++ encodingEntries entries
  | extension typeCode payload => extensionHeader typeCode payload.length ++ payload

/-- The bytes of the items of an array. -/
def encodingItems : List Value → Bytes
  | [] => []
  | item :: items => encoding item ++ encodingItems items

/-- The bytes of the entries of a map. -/
def encodingEntries : List (Value × Value) → Bytes
  | [] => []
  | (key, value) :: entries => encoding key ++ encoding value ++ encodingEntries entries

end

/-! ## Writing -/

mutual

/-- A value whose lengths fit is written as its bytes. -/
theorem write_of_fits : ∀ {value : Value}, value.Fits → value.write = Write.emit value.encoding
  | nil, _ => rfl
  | bool _, _ => rfl
  | int _, _ => rfl
  | uint _, _ => rfl
  | float32 _, _ => rfl
  | float64 _, _ => rfl
  | string text, fits => by
      rw [write, Write.str, Write.strHeader, Write.header_of_fits fits, Write.emit_then, encoding]
  | binary bytes, fits => by
      rw [write, Write.bin, Write.binHeader, Write.header_of_fits fits, Write.emit_then, encoding]
  | array items, ⟨count, fits⟩ => by
      rw [write, Write.arrayHeader, Write.header_of_fits count, writeItems_of_fits fits,
        Write.emit_then, encoding]
  | map entries, ⟨count, fits⟩ => by
      rw [write, Write.mapHeader, Write.header_of_fits count, writeEntries_of_fits fits,
        Write.emit_then, encoding]
  | extension typeCode payload, fits => by
      rw [write, Write.extension, Write.extensionHeader, Write.header_of_fits fits,
        Write.emit_then, encoding]

theorem writeItems_of_fits : ∀ {items : List Value}, FitsItems items →
    writeItems items = Write.emit (encodingItems items)
  | [], _ => Write.emit_nil.symm
  | item :: items, ⟨first, others⟩ => by
      rw [writeItems, write_of_fits first, writeItems_of_fits others, Write.emit_then,
        encodingItems]

theorem writeEntries_of_fits : ∀ {entries : List (Value × Value)}, FitsEntries entries →
    writeEntries entries = Write.emit (encodingEntries entries)
  | [], _ => Write.emit_nil.symm
  | (key, value) :: entries, ⟨first, second, others⟩ => by
      rw [writeEntries, write_of_fits first, write_of_fits second, writeEntries_of_fits others,
        Write.emit_then, Write.emit_then, encodingEntries, List.append_assoc]

end

/-- A value that fits is written from an empty writer as its bytes. -/
theorem run_of_fits {value : Value} (fits : value.Fits) :
    Write.run value.write = .ok value.encoding := by
  rw [write_of_fits fits]
  exact congrArg Except.ok (Writer.toList_append .empty _)

mutual

/-- A value with a length that does not fit is not written. -/
theorem fails_of_not_fits : ∀ {value : Value}, ¬ value.Fits → Write.Fails value.write
  | nil, exceeds => absurd trivial exceeds
  | bool _, exceeds => absurd trivial exceeds
  | int _, exceeds => absurd trivial exceeds
  | uint _, exceeds => absurd trivial exceeds
  | float32 _, exceeds => absurd trivial exceeds
  | float64 _, exceeds => absurd trivial exceeds
  | string text, exceeds => (Write.fails_header exceeds).head _
  | binary bytes, exceeds => (Write.fails_header exceeds).head _
  | array items, exceeds => by
      by_cases count : FitsLength items.length
      · rw [write, Write.arrayHeader, Write.header_of_fits count]
        exact (failsItems_of_not_fits fun fits => exceeds ⟨count, fits⟩).afterEmit _
      · exact (Write.fails_header count).head _
  | map entries, exceeds => by
      by_cases count : FitsLength entries.length
      · rw [write, Write.mapHeader, Write.header_of_fits count]
        exact (failsEntries_of_not_fits fun fits => exceeds ⟨count, fits⟩).afterEmit _
      · exact (Write.fails_header count).head _
  | extension typeCode payload, exceeds => (Write.fails_header exceeds).head _

theorem failsItems_of_not_fits : ∀ {items : List Value}, ¬ FitsItems items →
    Write.Fails (writeItems items)
  | [], exceeds => absurd trivial exceeds
  | item :: items, exceeds => by
      rw [writeItems]
      by_cases first : item.Fits
      · rw [write_of_fits first]
        exact (failsItems_of_not_fits fun others => exceeds ⟨first, others⟩).afterEmit _
      · exact (fails_of_not_fits first).head _

theorem failsEntries_of_not_fits : ∀ {entries : List (Value × Value)}, ¬ FitsEntries entries →
    Write.Fails (writeEntries entries)
  | [], exceeds => absurd trivial exceeds
  | (key, value) :: entries, exceeds => by
      rw [writeEntries]
      by_cases first : key.Fits
      · rw [write_of_fits first]
        apply Write.Fails.afterEmit _
        by_cases second : value.Fits
        · rw [write_of_fits second]
          exact (failsEntries_of_not_fits fun others =>
            exceeds ⟨first, second, others⟩).afterEmit _
        · exact (fails_of_not_fits second).head _
      · exact (fails_of_not_fits first).head _

end

/-- What a value is written as from an empty writer is its bytes. -/
theorem eq_encoding_of_run {value : Value} {bytes : Bytes}
    (written : Write.run value.write = .ok bytes) : bytes = value.encoding := by
  by_cases fits : value.Fits
  · exact Except.ok.inj (written.symm.trans (run_of_fits fits))
  · obtain ⟨failure, after, error⟩ := fails_of_not_fits fits .empty
    rw [Write.run, error] at written
    cases written

/-! ## Sizes -/

/-- What begins with a header has at least one byte. -/
theorem length_header_pos {form? : Format → Option LengthForm} {header others : Bytes}
    {length : Nat} (gives : HeaderGives form? header length) : 0 < (header ++ others).length := by
  rcases gives with ⟨code, bytes, _, rfl, _⟩
  exact Nat.succ_pos _

/-- Every integer has at least one byte. -/
theorem length_compactInteger_pos (number : Int) : 0 < (compactInteger number).length := by
  rw [compactInteger]
  cases IntegerForm.shortest number <;> exact Nat.succ_pos _

/-- Every value has at least one byte. -/
theorem length_encoding_pos {value : Value} (fits : value.Fits) : 0 < value.encoding.length := by
  cases value with
  | nil => exact Nat.succ_pos 0
  | bool truth => exact Nat.succ_pos 0
  | int word => exact length_compactInteger_pos _
  | uint word => exact length_compactInteger_pos _
  | float32 bits =>
      rw [encoding, List.length_cons]
      exact Nat.succ_pos _
  | float64 bits =>
      rw [encoding, List.length_cons]
      exact Nat.succ_pos _
  | string text => exact length_header_pos (strHeader_gives fits)
  | binary bytes => exact length_header_pos (binHeader_gives fits)
  | array items => exact length_header_pos (arrayHeader_gives fits.1)
  | map entries => exact length_header_pos (mapHeader_gives fits.1)
  | extension typeCode payload =>
      rw [encoding, extensionHeader]
      simp only [List.length_append, List.length_singleton]
      omega

theorem length_le_encodingItems {items : List Value} (fits : FitsItems items) :
    items.length ≤ (encodingItems items).length := by
  induction items with
  | nil => exact Nat.le_refl 0
  | cons item items ih =>
      have first := length_encoding_pos fits.1
      have others := ih fits.2
      rw [encodingItems, List.length_append, List.length_cons]
      omega

theorem length_le_encodingEntries {entries : List (Value × Value)} (fits : FitsEntries entries) :
    entries.length * 2 ≤ (encodingEntries entries).length := by
  induction entries with
  | nil => exact Nat.le_refl 0
  | cons entry entries ih =>
      have first := length_encoding_pos fits.1
      have second := length_encoding_pos fits.2.1
      have others := ih fits.2.2
      rw [encodingEntries, List.length_append, List.length_append, List.length_cons]
      omega

/-! ## Item by item -/

theorem encodingItems_eq_flatMap (items : List Value) :
    encodingItems items = items.flatMap encoding := by
  induction items with
  | nil => rfl
  | cons item items ih => rw [encodingItems, ih, List.flatMap_cons]

theorem encodingEntries_eq_flatMap (entries : List (Value × Value)) :
    encodingEntries entries =
      entries.flatMap fun entry => entry.1.encoding ++ entry.2.encoding := by
  induction entries with
  | nil => rfl
  | cons entry entries ih => rw [encodingEntries, ih, List.flatMap_cons]

theorem fitsItems_iff {items : List Value} : FitsItems items ↔ ∀ item ∈ items, item.Fits := by
  induction items with
  | nil => simp [FitsItems]
  | cons item items ih => simp [FitsItems, ih]

theorem fitsEntries_iff {entries : List (Value × Value)} :
    FitsEntries entries ↔ ∀ entry ∈ entries, entry.1.Fits ∧ entry.2.Fits := by
  induction entries with
  | nil => simp [FitsEntries]
  | cons entry entries ih => simp [FitsEntries, ih, and_assoc]

/-- No item is nested deeper than the deepest. -/
theorem nesting_le_nestingItems {items : List Value} {item : Value} (member : item ∈ items) :
    item.nesting ≤ nestingItems items := by
  induction items with
  | nil => cases member
  | cons first items ih =>
      rcases List.mem_cons.1 member with rfl | member
      · exact Nat.le_max_left _ _
      · exact Nat.le_trans (ih member) (Nat.le_max_right _ _)

theorem nesting_le_nestingEntries {entries : List (Value × Value)} {entry : Value × Value}
    (member : entry ∈ entries) :
    entry.1.nesting ≤ nestingEntries entries ∧ entry.2.nesting ≤ nestingEntries entries := by
  induction entries with
  | nil => cases member
  | cons first entries ih =>
      rcases List.mem_cons.1 member with rfl | member
      · exact Nat.max_le.1 (Nat.le_max_left _ _)
      · obtain ⟨key, value⟩ := ih member
        have deepest := Nat.le_max_right (max first.1.nesting first.2.nesting)
          (nestingEntries entries)
        exact ⟨Nat.le_trans key deepest, Nat.le_trans value deepest⟩

theorem encodingItems_append (items others : List Value) :
    encodingItems (items ++ others) = encodingItems items ++ encodingItems others := by
  simp only [encodingItems_eq_flatMap, List.flatMap_append]

theorem fitsItems_append {items others : List Value} (fits : FitsItems items)
    (further : FitsItems others) : FitsItems (items ++ others) := by
  rw [fitsItems_iff] at *
  intro item member
  rcases List.mem_append.1 member with member | member
  · exact fits item member
  · exact further item member

/-! ## Entries as items -/

/-- The keys and the values of entries, taking turns. -/
def turns : List (Value × Value) → List Value
  | [] => []
  | (key, value) :: entries => key :: value :: turns entries

theorem encodingItems_turns (entries : List (Value × Value)) :
    encodingItems (turns entries) = encodingEntries entries := by
  induction entries with
  | nil => rfl
  | cons entry entries ih =>
      rw [turns, encodingItems, encodingItems, ih, encodingEntries, List.append_assoc]

theorem fitsItems_turns {entries : List (Value × Value)} :
    FitsItems (turns entries) ↔ FitsEntries entries := by
  induction entries with
  | nil => exact Iff.rfl
  | cons entry entries ih => simp only [turns, FitsItems, FitsEntries, ih]

/-- Twice as many items are the keys and the values of some entries. -/
theorem exists_turns {count : Nat} : ∀ {items : List Value}, items.length = count * 2 →
    ∃ entries, entries.length = count ∧ turns entries = items := by
  induction count with
  | zero =>
      intro items none
      obtain rfl := List.eq_nil_of_length_eq_zero (none.trans (Nat.zero_mul 2))
      exact ⟨[], rfl, rfl⟩
  | succ count ih =>
      intro items paired
      rw [Nat.succ_mul] at paired
      match items, paired with
      | key :: value :: items, paired =>
          obtain ⟨entries, counted, rfl⟩ := ih (Nat.succ.inj (Nat.succ.inj paired))
          exact ⟨(key, value) :: entries, congrArg Nat.succ counted, rfl⟩

/-- Keys and values that were written in turn are the entries of a map. -/
theorem exists_entries {count : Nat} {items : List Value} (paired : items.length = count * 2)
    (fits : FitsItems items) : ∃ entries : List (Value × Value), entries.length = count ∧
      FitsEntries entries ∧ encodingEntries entries = encodingItems items := by
  obtain ⟨entries, counted, rfl⟩ := exists_turns paired
  exact ⟨entries, counted, fitsItems_turns.1 fits, (encodingItems_turns entries).symm⟩

/-! ## Normal values -/

theorem length_normalItems (items : List Value) : (normalItems items).length = items.length := by
  induction items with
  | nil => rfl
  | cons item items ih => rw [normalItems, List.length_cons, ih, List.length_cons]

theorem length_normalEntries (entries : List (Value × Value)) :
    (normalEntries entries).length = entries.length := by
  induction entries with
  | nil => rfl
  | cons entry entries ih => rw [normalEntries, List.length_cons, ih, List.length_cons]

mutual

/-- A value is written as its normal form is. -/
theorem encoding_normal : ∀ value : Value, value.normal.encoding = value.encoding
  | nil | bool _ | uint _ | float32 _ | float64 _ | string _ | binary _ | extension _ _ => rfl
  | int word => by
      rw [normal, ofInteger]
      by_cases positive : 0 ≤ word
      · rw [if_pos positive, encoding, encoding, Int64.toNat_toUInt64_of_le positive,
          ← Int64.toNat_toInt, Int.toNat_of_nonneg (Int64.le_iff_toInt_le.1 positive)]
      · rw [if_neg positive]
  | array items => by
      rw [normal, encoding, encoding, encoding_normalItems, length_normalItems]
  | map entries => by
      rw [normal, encoding, encoding, encoding_normalEntries, length_normalEntries]

theorem encoding_normalItems : ∀ items : List Value,
    encodingItems (normalItems items) = encodingItems items
  | [] => rfl
  | item :: items => by
      rw [normalItems, encodingItems, encodingItems, encoding_normal item,
        encoding_normalItems items]

theorem encoding_normalEntries : ∀ entries : List (Value × Value),
    encodingEntries (normalEntries entries) = encodingEntries entries
  | [] => rfl
  | (key, value) :: entries => by
      rw [normalEntries, encodingEntries, encodingEntries, encoding_normal key,
        encoding_normal value, encoding_normalEntries entries]

end

mutual

/-- A value fits just as its normal form does. -/
theorem fits_normal : ∀ {value : Value}, value.Fits → value.normal.Fits
  | nil, fits | bool _, fits | uint _, fits | float32 _, fits | float64 _, fits => fits
  | string _, fits | binary _, fits | extension _ _, fits => fits
  | int word, _ => by
      rw [normal, ofInteger]
      split <;> trivial
  | array items, ⟨count, fits⟩ => by
      rw [normal, Fits, length_normalItems]
      exact ⟨count, fits_normalItems fits⟩
  | map entries, ⟨count, fits⟩ => by
      rw [normal, Fits, length_normalEntries]
      exact ⟨count, fits_normalEntries fits⟩

theorem fits_normalItems : ∀ {items : List Value}, FitsItems items → FitsItems (normalItems items)
  | [], _ => trivial
  | _ :: _, ⟨first, others⟩ => ⟨fits_normal first, fits_normalItems others⟩

theorem fits_normalEntries : ∀ {entries : List (Value × Value)}, FitsEntries entries →
    FitsEntries (normalEntries entries)
  | [], _ => trivial
  | (_, _) :: _, ⟨first, second, others⟩ =>
      ⟨fits_normal first, fits_normal second, fits_normalEntries others⟩

end

end MsgPack.Value
