import MsgPack.Proofs.Reader.Token
import MsgPack.Proofs.Value.Encoding

/-!
# Values are well-formed

The bytes of a value are well-formed, and the limits on nesting that they keep are just those
that the value keeps.  So how deep a value is nested can be told from its bytes alone.
-/

namespace MsgPack

/-! ## Leaves -/

/-- An integer in a form that holds it is a leaf. -/
theorem IntegerForm.leaf_encode {form : IntegerForm} {number : Int} (held : form.Holds number) :
    Leaf (form.encode number) := by
  obtain ⟨code, bytes, encoded, known, length, _⟩ := encode_gives held
  rw [encoded, Leaf.cons_iff, Format.announcement_of_integer known]
  exact length

/-- The header of a payload and the payload are a leaf. -/
theorem HeaderGives.leaf {form? : Format → Option LengthForm} {header payload : Bytes}
    (gives : HeaderGives form? header payload.length)
    (announced : ∀ format form code, form? format = some form →
      format.announcement code = form.announcement code) : Leaf (header ++ payload) := by
  rcases gives with ⟨code, bytes, form, rfl, known, given⟩
  exact (Leaf.iff_of_length (announced _ _ _ known)).2 ⟨bytes, payload, rfl, given⟩

/-- The header of an array or a map opens as many values as its entries have. -/
theorem HeaderGives.opens {form? : Format → Option LengthForm} {header : Bytes}
    {count each : Nat} (gives : HeaderGives form? header count)
    (announced : ∀ format form code, form? format = some form →
      format.announcement code = .values each form) : Opens header (count * each) := by
  rcases gives with ⟨code, bytes, form, rfl, known, given⟩
  exact opens_iff.2 ⟨each, form, count, announced _ _ _ known, given, rfl⟩

namespace Value

theorem leaf_int {number : Int} (low : -0x8000000000000000 ≤ number)
    (high : number < 0x10000000000000000) : Leaf (compactInteger number) :=
  IntegerForm.leaf_encode (IntegerForm.shortest_holds low high)

theorem leaf_string {text : String} (fits : (string text).Fits) :
    Leaf (string text).encoding := by
  rw [encoding]
  exact (strHeader_gives fits).leaf fun _ _ code known => Format.announcement_of_string known code

theorem leaf_binary {bytes : Bytes} (fits : (binary bytes).Fits) :
    Leaf (binary bytes).encoding := by
  rw [encoding]
  exact (binHeader_gives fits).leaf fun _ _ code known => Format.announcement_of_binary known code

theorem leaf_extension {typeCode : Int8} {payload : Bytes}
    (fits : (extension typeCode payload).Fits) :
    Leaf (extension typeCode payload).encoding := by
  obtain ⟨code, bytes, form, same, known, given⟩ := extensionHeader_gives typeCode fits
  rw [encoding, same]
  exact (Leaf.iff_of_extension (Format.announcement_of_extension known code)).2
    ⟨_, bytes, payload, rfl, given, rfl⟩

theorem opens_arrayHeader {count : Nat} (fits : FitsLength count) :
    Opens (arrayHeader count) count := by
  have opens := (arrayHeader_gives fits).opens fun _ _ code known =>
    Format.announcement_of_array known code
  rwa [Nat.mul_one] at opens

theorem opens_mapHeader {count : Nat} (fits : FitsLength count) :
    Opens (mapHeader count) (count * 2) :=
  (mapHeader_gives fits).opens fun _ _ code known => Format.announcement_of_map known code

/-- Whether a value holds no others. -/
def IsLeaf : Value → Prop
  | array _ | map _ => False
  | _ => True

/-- The bytes of a value that holds no others are a leaf, and it is not nested. -/
theorem leaf_encoding {value : Value} (single : value.IsLeaf) (fits : value.Fits) :
    Leaf value.encoding ∧ value.nesting = 0 := by
  cases value with
  | nil => exact ⟨.fixed .nil, rfl⟩
  | bool truth =>
      cases truth with
      | false => exact ⟨.fixed .false, rfl⟩
      | true => exact ⟨.fixed .true, rfl⟩
  | int word =>
      rw [encoding]
      exact ⟨leaf_int word.le_toInt (Int.lt_trans word.toInt_lt (by decide)), rfl⟩
  | uint word =>
      rw [encoding]
      exact ⟨leaf_int (by omega) (Int.ofNat_lt.2 word.toNat_lt), rfl⟩
  | float32 bits =>
      rw [encoding]
      exact ⟨.fixed ((BigEndian.length_encode 4 _).symm ▸ .float32), rfl⟩
  | float64 bits =>
      rw [encoding]
      exact ⟨.fixed ((BigEndian.length_encode 8 _).symm ▸ .float64), rfl⟩
  | string text => exact ⟨leaf_string fits, rfl⟩
  | binary bytes => exact ⟨leaf_binary fits, rfl⟩
  | extension typeCode payload => exact ⟨leaf_extension fits, rfl⟩
  | array items => exact single.elim
  | map entries => exact single.elim

theorem wellFormed_of_isLeaf {value : Value} (single : value.IsLeaf) (fits : value.Fits) :
    WellFormed value.nesting 1 value.encoding :=
  (leaf_encoding single fits).1.wellFormed _

/-- A row goes on after a value that holds no others. -/
theorem leaf_of_row {value : Value} {levels count : Nat} {row rest others : Bytes}
    (single : value.IsLeaf) (fits : value.Fits) (joined : value.encoding ++ rest = row ++ others)
    (given : WellFormed levels (count + 1) row) :
    value.nesting ≤ levels ∧ ∃ tail, rest = tail ++ others ∧ WellFormed levels count tail := by
  obtain ⟨leaf, flat⟩ := leaf_encoding single fits
  rw [flat]
  exact ⟨Nat.zero_le _, WellFormed.of_leaf leaf joined given⟩

/-! ## Values are well-formed -/

mutual

/-- The bytes of a value are one well-formed value, nested as deep as the value is. -/
theorem wellFormed_encoding : ∀ {value : Value}, value.Fits →
    WellFormed value.nesting 1 value.encoding
  | array items, ⟨count, fits⟩ => by
      have inside := wellFormed_encodingItems fits
      rw [encoding, nesting]
      simpa only [List.append_nil] using WellFormed.opened (opens_arrayHeader count) inside .done
  | map entries, ⟨count, fits⟩ => by
      have inside := wellFormed_encodingEntries fits
      rw [encoding, nesting]
      simpa only [List.append_nil] using WellFormed.opened (opens_mapHeader count) inside .done
  | nil, fits => wellFormed_of_isLeaf trivial fits
  | bool _, fits => wellFormed_of_isLeaf trivial fits
  | int _, fits => wellFormed_of_isLeaf trivial fits
  | uint _, fits => wellFormed_of_isLeaf trivial fits
  | float32 _, fits => wellFormed_of_isLeaf trivial fits
  | float64 _, fits => wellFormed_of_isLeaf trivial fits
  | string _, fits => wellFormed_of_isLeaf trivial fits
  | binary _, fits => wellFormed_of_isLeaf trivial fits
  | extension _ _, fits => wellFormed_of_isLeaf trivial fits

theorem wellFormed_encodingItems : ∀ {items : List Value}, FitsItems items →
    WellFormed (nestingItems items) items.length (encodingItems items)
  | [], _ => .done
  | item :: items, ⟨first, fits⟩ => by
      have head := (wellFormed_encoding first).mono (Nat.le_max_left _ (nestingItems items))
      have tail := (wellFormed_encodingItems fits).mono (Nat.le_max_right item.nesting _)
      rw [encodingItems, nestingItems, List.length_cons, Nat.add_comm]
      exact head.append tail

theorem wellFormed_encodingEntries : ∀ {entries : List (Value × Value)}, FitsEntries entries →
    WellFormed (nestingEntries entries) (entries.length * 2) (encodingEntries entries)
  | [], _ => .done
  | (key, value) :: entries, ⟨first, second, fits⟩ => by
      have low := Nat.le_max_left (max key.nesting value.nesting) (nestingEntries entries)
      have head := (wellFormed_encoding first).mono (Nat.le_trans (Nat.le_max_left _ _) low)
      have body := (wellFormed_encoding second).mono (Nat.le_trans (Nat.le_max_right _ _) low)
      have tail := (wellFormed_encodingEntries fits).mono
        (Nat.le_max_right (max key.nesting value.nesting) _)
      have row := (head.append body).append tail
      rw [encodingEntries, nestingEntries, List.length_cons, Nat.succ_mul, Nat.add_comm]
      exact row

end

/-! ## Their nesting is that of the values -/

mutual

/-- Where the bytes of a value stand at the front of a row, the value is nested no deeper
than the row may be, and the row goes on after them. -/
theorem nesting_le_of_row : ∀ {value : Value}, value.Fits →
    ∀ {levels count : Nat} {row rest others : Bytes}, value.encoding ++ rest = row ++ others →
      WellFormed levels (count + 1) row →
        value.nesting ≤ levels ∧ ∃ tail, rest = tail ++ others ∧ WellFormed levels count tail
  | array items, ⟨count, fits⟩ => by
      intro joined given
      rw [encoding, List.append_assoc] at joined
      obtain ⟨below, inside, tail, rfl, joined, nested, further⟩ :=
        WellFormed.of_opens (opens_arrayHeader count) joined given
      obtain ⟨bound, last, rfl, done⟩ := nestingItems_le_of_row fits joined nested
      rw [done.eq_nil]
      exact ⟨Nat.succ_le_succ bound, tail, rfl, further⟩
  | map entries, ⟨count, fits⟩ => by
      intro joined given
      rw [encoding, List.append_assoc] at joined
      obtain ⟨below, inside, tail, rfl, joined, nested, further⟩ :=
        WellFormed.of_opens (opens_mapHeader count) joined given
      obtain ⟨bound, last, rfl, done⟩ := nestingEntries_le_of_row fits joined nested
      rw [done.eq_nil]
      exact ⟨Nat.succ_le_succ bound, tail, rfl, further⟩
  | nil, fits => leaf_of_row trivial fits
  | bool _, fits => leaf_of_row trivial fits
  | int _, fits => leaf_of_row trivial fits
  | uint _, fits => leaf_of_row trivial fits
  | float32 _, fits => leaf_of_row trivial fits
  | float64 _, fits => leaf_of_row trivial fits
  | string _, fits => leaf_of_row trivial fits
  | binary _, fits => leaf_of_row trivial fits
  | extension _ _, fits => leaf_of_row trivial fits

theorem nestingItems_le_of_row : ∀ {items : List Value} {levels : Nat} {row rest others : Bytes},
    FitsItems items → encodingItems items ++ rest = row ++ others →
      WellFormed levels items.length row →
        nestingItems items ≤ levels ∧ ∃ tail, rest = tail ++ others ∧ WellFormed levels 0 tail
  | [], _, row, _, _, _, joined, given => ⟨Nat.zero_le _, row, joined, given⟩
  | item :: items, _, _, _, _, ⟨first, fits⟩, joined, given => by
      rw [encodingItems, List.append_assoc] at joined
      obtain ⟨head, middle, joined, further⟩ := nesting_le_of_row first joined given
      obtain ⟨bound, tail, joined, done⟩ := nestingItems_le_of_row fits joined further
      exact ⟨Nat.max_le.2 ⟨head, bound⟩, tail, joined, done⟩

theorem nestingEntries_le_of_row : ∀ {entries : List (Value × Value)} {levels : Nat}
    {row rest others : Bytes}, FitsEntries entries →
      encodingEntries entries ++ rest = row ++ others →
        WellFormed levels (entries.length * 2) row →
          nestingEntries entries ≤ levels ∧
            ∃ tail, rest = tail ++ others ∧ WellFormed levels 0 tail
  | [], _, row, _, _, _, joined, given => ⟨Nat.zero_le _, row, joined, given⟩
  | (key, value) :: entries, _, _, _, _, ⟨first, second, fits⟩, joined, given => by
      rw [encodingEntries, List.append_assoc, List.append_assoc] at joined
      rw [List.length_cons, Nat.succ_mul] at given
      obtain ⟨head, middle, joined, further⟩ := nesting_le_of_row first joined given
      obtain ⟨body, middle, joined, further⟩ := nesting_le_of_row second joined further
      obtain ⟨bound, tail, joined, done⟩ := nestingEntries_le_of_row fits joined further
      exact ⟨Nat.max_le.2 ⟨Nat.max_le.2 ⟨head, body⟩, bound⟩, tail, joined, done⟩

end

/-- The bytes of a value are a well-formed value just within the limits on nesting that the
value keeps. -/
theorem wellFormed_iff {value : Value} (fits : value.Fits) (levels : Nat) :
    WellFormed levels 1 value.encoding ↔ value.nesting ≤ levels := by
  constructor
  · intro given
    have joined : value.encoding ++ [] = value.encoding ++ [] := rfl
    exact (nesting_le_of_row fits joined given).1
  · intro bound
    exact (wellFormed_encoding fits).mono bound

/-- Bytes of a value that begin as nil are nil. -/
theorem encoding_eq_nil {value : Value} (fits : value.Fits) {bytes : Bytes}
    (begins : value.encoding = Format.nil.code :: bytes) : bytes = [] := by
  have joined : [Format.nil.code] ++ bytes = value.encoding ++ [] := by
    rw [begins, List.append_nil]
    rfl
  obtain ⟨tail, rfl, done⟩ := WellFormed.of_leaf (.fixed .nil) joined (wellFormed_encoding fits)
  rw [done.eq_nil]
  rfl

end Value

end MsgPack
