import MsgPack.Proofs.Reader.Compact
import MsgPack.Proofs.Value.Encoding

/-!
# Values there and back

A value that can be written is read back as its normal form, wherever its bytes stand and
whatever follows them.  Reading goes by the budget of levels and the value by its structure;
an array or a map uses up one level on both sides.
-/

namespace MsgPack.Value

/-! ## Reading one value -/

section Step

variable {inner : Read Value}

open Read (Takes)

theorem takes_integer {number : Int} (low : -0x8000000000000000 ≤ number)
    (high : number < 0x10000000000000000) :
    Takes 0 (readStep inner) (compactInteger number)
      (ofInteger ((IntegerForm.shortest number).word number)) := by
  have held := IntegerForm.shortest_holds low high
  obtain ⟨code, bytes, encoded, known, _⟩ := IntegerForm.encode_gives held
  have kind : (Format.ofCode code).kind = .integer := (Format.integer?_isSome _).1 (known ▸ rfl)
  have read := (Read.takes_integerAs .integer held).mapped ofInteger
  rw [compactInteger]
  rw [encoded] at read ⊢
  apply Takes.peekThen
  simp only [kind]
  exact read

theorem takes_string {text : String} (fits : FitsLength (Utf8.encode text).length) :
    Takes 0 (readStep inner) (encoding (string text)) (string text) := by
  obtain ⟨code, bytes, form, same, known, _⟩ := strHeader_gives fits
  have kind : (Format.ofCode code).kind = .string := (Format.string?_isSome _).1 (known ▸ rfl)
  have read := (Read.takes_string fits).mapped string
  rw [encoding]
  rw [same] at read ⊢
  apply Takes.peekThen
  simp only [kind]
  exact read

theorem takes_binary {bytes : Bytes} (fits : FitsLength bytes.length) :
    Takes 0 (readStep inner) (encoding (binary bytes)) (binary bytes) := by
  obtain ⟨code, _, form, same, known, _⟩ := binHeader_gives fits
  have kind : (Format.ofCode code).kind = .binary := (Format.binary?_isSome _).1 (known ▸ rfl)
  have read : Takes 0 (return binary (← Read.bin).content) (binHeader bytes.length ++ bytes)
      (binary bytes) := Read.takes_binThen fits (fun _ => rfl) (.pure _)
  rw [encoding]
  rw [same] at read ⊢
  apply Takes.peekThen
  simp only [kind]
  exact read

theorem takes_extension (typeCode : Int8) {payload : Bytes} (fits : FitsLength payload.length) :
    Takes 0 (readStep inner) (encoding (extension typeCode payload))
      (extension typeCode payload) := by
  obtain ⟨code, _, form, same, known, _⟩ := extensionHeader_gives typeCode fits
  have kind : (Format.ofCode code).kind = .extension :=
    (Format.extension?_isSome _).1 (known ▸ rfl)
  have read : Takes 0 (do
        let found ← Read.extension
        return extension found.typeCode found.payload.content)
      (extensionHeader typeCode payload.length ++ payload) (extension typeCode payload) :=
    Read.takes_extensionThen fits (fun _ _ => rfl) (.pure _)
  rw [encoding]
  rw [same] at read ⊢
  apply Takes.peekThen
  simp only [kind]
  exact read

/-- An array is read as its items, one level deeper. -/
theorem takes_array {levels count : Nat} {bytes : Bytes} {items : List Value}
    (fits : FitsLength count) (enough : count ≤ bytes.length)
    (inside : Takes levels (Loop.times count inner) bytes items) :
    Takes (levels + 1) (readStep inner) (arrayHeader count ++ bytes) (array items) := by
  obtain ⟨code, _, form, same, known, _⟩ := arrayHeader_gives fits
  have kind : (Format.ofCode code).kind = .array := (Format.array?_isSome _).1 (known ▸ rfl)
  have read : Takes (levels + 1) (do
        let count ← Read.arrayHeader
        return array (← Read.nested (Loop.times count inner)))
      (arrayHeader count ++ bytes) (array items) :=
    Read.takes_arrayHeaderThen fits enough (inside.nested.mapped array)
  rw [same] at read ⊢
  apply Takes.peekThen
  simp only [kind]
  exact read

/-- A map is read as its entries, one level deeper. -/
theorem takes_map {levels count : Nat} {bytes : Bytes} {entries : List (Value × Value)}
    (fits : FitsLength count) (enough : count * 2 ≤ bytes.length)
    (inside : Takes levels (Loop.times count do
      let key ← inner
      return (key, ← inner)) bytes entries) :
    Takes (levels + 1) (readStep inner) (mapHeader count ++ bytes) (map entries) := by
  obtain ⟨code, _, form, same, known, _⟩ := mapHeader_gives fits
  have kind : (Format.ofCode code).kind = .map := (Format.map?_isSome _).1 (known ▸ rfl)
  have read : Takes (levels + 1) (do
        let count ← Read.mapHeader
        return map (← Read.nested (Loop.times count do
          let key ← inner
          return (key, ← inner))))
      (mapHeader count ++ bytes) (map entries) :=
    Read.takes_mapHeaderThen fits enough (inside.nested.mapped map)
  rw [same] at read ⊢
  apply Takes.peekThen
  simp only [kind]
  exact read

/-- A signed integer comes back unsigned, unless it is negative. -/
theorem takes_int (word : Int64) :
    Takes 0 (readStep inner) (compactInteger word.toInt) (ofInteger (.signed word)) := by
  have sign : 0 ≤ word ↔ 0 ≤ word.toInt := Int64.le_iff_toInt_le
  have same : ofInteger ((IntegerForm.shortest word.toInt).word word.toInt) =
      ofInteger (.signed word) := by
    rw [IntegerForm.word_shortest]
    by_cases positive : 0 ≤ word
    · have unsigned : UInt64.ofNat word.toInt.toNat = word.toUInt64 := by
        rw [Int64.toNat_toInt, ← Int64.toNat_toUInt64_of_le positive, UInt64.ofNat_toNat]
      rw [if_pos (sign.1 positive), unsigned]
      simp only [ofInteger, if_pos positive]
    · rw [if_neg (fun nonnegative => positive (sign.2 nonnegative)), Int64.ofInt_toInt]
  rw [← same]
  exact takes_integer word.le_toInt (Int.lt_trans word.toInt_lt (by decide))

theorem takes_uint (word : UInt64) :
    Takes 0 (readStep inner) (compactInteger word.toNat) (uint word) := by
  have same : ofInteger ((IntegerForm.shortest word.toNat).word word.toNat) = uint word := by
    rw [IntegerForm.word_shortest, if_pos (Int.natCast_nonneg _), Int.toNat_natCast,
      UInt64.ofNat_toNat]
    rfl
  rw [← same]
  exact takes_integer (by omega) (Int.ofNat_lt.2 word.toNat_lt)

end Step

/-! ## Reading any value -/

open Read (Takes)

mutual

/-- A value that fits is read as its normal form, if its nesting is within the budget. -/
theorem takes_readWithin : ∀ (value : Value) {budget : Nat}, value.Fits → value.nesting ≤ budget →
    Takes value.nesting (readWithin budget) value.encoding value.normal
  | nil, budget, _, _ => by
      cases budget <;> exact Takes.peekThen (Read.takes_nil.mapped fun _ => nil)
  | bool truth, budget, _, _ => by
      have read := (Read.takes_bool truth).mapped bool
      cases truth <;> cases budget <;> exact Takes.peekThen read
  | int word, budget, _, _ => by
      rw [encoding]
      cases budget <;> exact takes_int word
  | uint word, budget, _, _ => by
      rw [encoding]
      cases budget <;> exact takes_uint word
  | float32 bits, budget, _, _ => by
      have read := (Read.takes_float32 bits).mapped float32
      cases budget <;> exact Takes.peekThen read
  | float64 bits, budget, _, _ => by
      have read := (Read.takes_float64 bits).mapped float64
      cases budget <;> exact Takes.peekThen read
  | string text, budget, fits, _ => by
      cases budget <;> exact takes_string fits
  | binary bytes, budget, fits, _ => by
      cases budget <;> exact takes_binary fits
  | extension typeCode payload, budget, fits, _ => by
      cases budget <;> exact takes_extension typeCode fits
  | array items, budget, ⟨count, fits⟩, within => by
      cases budget with
      | zero => exact absurd within (Nat.not_succ_le_zero _)
      | succ budget =>
          exact takes_array count (length_le_encodingItems fits)
            (takes_items items fits (Nat.le_of_succ_le_succ within))
  | map entries, budget, ⟨count, fits⟩, within => by
      cases budget with
      | zero => exact absurd within (Nat.not_succ_le_zero _)
      | succ budget =>
          exact takes_map count (length_le_encodingEntries fits)
            (takes_entries entries fits (Nat.le_of_succ_le_succ within))

theorem takes_items : ∀ (items : List Value) {budget : Nat}, FitsItems items →
    nestingItems items ≤ budget →
      Takes (nestingItems items) (Loop.times items.length (readWithin budget))
        (encodingItems items) (normalItems items)
  | [], _, _, _ => .pure []
  | item :: items, budget, ⟨first, others⟩, within => by
      rw [nestingItems] at within ⊢
      have head := takes_readWithin item first (Nat.le_trans (Nat.le_max_left _ _) within)
      have tail := takes_items items others (Nat.le_trans (Nat.le_max_right _ _) within)
      rw [List.length_cons, Loop.times_succ, encodingItems, normalItems]
      exact (head.mono (Nat.le_max_left _ _)).bind
        ((tail.mono (Nat.le_max_right _ _)).mapped _)

theorem takes_entries : ∀ (entries : List (Value × Value)) {budget : Nat},
    FitsEntries entries → nestingEntries entries ≤ budget →
      Takes (nestingEntries entries)
        (Loop.times entries.length do
          let key ← readWithin budget
          return (key, ← readWithin budget))
        (encodingEntries entries) (normalEntries entries)
  | [], _, _, _ => .pure []
  | (key, value) :: entries, budget, ⟨first, second, others⟩, within => by
      rw [nestingEntries] at within ⊢
      rcases Nat.max_le.1 within with ⟨pair, rest⟩
      rcases Nat.max_le.1 pair with ⟨left, right⟩
      have head := takes_readWithin key first left
      have body := takes_readWithin value second right
      have tail := takes_entries entries others rest
      have low := Nat.le_max_left (max key.nesting value.nesting) (nestingEntries entries)
      rw [List.length_cons, Loop.times_succ, encodingEntries, normalEntries]
      apply Takes.bind
      · exact (head.mono (Nat.le_trans (Nat.le_max_left _ _) low)).bind
          ((body.mono (Nat.le_trans (Nat.le_max_right _ _) low)).mapped _)
      · exact (tail.mono (Nat.le_max_right _ _)).mapped _

end

/-- A value that fits is read as its normal form. -/
theorem takes_read {value : Value} (fits : value.Fits) :
    Takes value.nesting read value.encoding value.normal :=
  fun reader rest next room => takes_readWithin value fits room reader rest next room

/-! ## There and back -/

/-- Only a value whose parts fit the format is written. -/
theorem fits_of_write {value : Value} {writer written : Writer}
    (ok : value.write writer = .ok () written) : value.Fits := by
  by_cases fits : value.Fits
  · exact fits
  · exact absurd ok (fails_of_not_fits fits).not_ok

/-- Writing a value succeeds just if every length and every count inside it fits.  What was
written is read as the normal form of the value, by any reader that has as many levels left
as the value is nested deep, up to what follows. -/
theorem write_read (value : Value) (writer : Writer) :
    ((∃ written, value.write writer = .ok () written) ↔ value.Fits) ∧
    ∀ written, value.write writer = .ok () written →
      ∃ bytes, written.toList = writer.toList ++ bytes ∧
        ∀ (reader : Reader) (rest : Bytes), reader.cursor.unread = bytes ++ rest →
          value.nesting ≤ reader.budget →
            ∃ after, read reader = .ok value.normal after ∧ after.cursor.unread = rest ∧
              after.position = reader.position + bytes.length ∧ after.depth = reader.depth := by
  constructor
  · constructor
    · rintro ⟨written, ok⟩
      exact fits_of_write ok
    · intro fits
      rw [write_of_fits fits]
      exact ⟨_, rfl⟩
  · intro written ok
    have fits := fits_of_write ok
    rw [write_of_fits fits] at ok
    cases ok
    refine ⟨value.encoding, Writer.toList_append writer _, fun reader rest next room => ?_⟩
    obtain ⟨after, ok, passed⟩ := takes_read fits reader rest next room
    exact ⟨after, ok, passed.unread_eq next, passed.position, passed.depth⟩

/-- An array of one integer, followed by nil, at the limit of depth. -/
theorem write_read_array_of_int :
    ∃ after, read (.ofCursor (.ofBytes [0x91, 0x07, 0xc0]) 1) = .ok (array [uint 7]) after ∧
      after.cursor.unread = [0xc0] := by
  have written : (array [int 7]).write .empty = .ok () (Writer.empty.append [0x91, 0x07]) := by
    have fits : (array [int 7]).Fits := ⟨by decide, trivial, trivial⟩
    rw [write_of_fits fits]
    rfl
  obtain ⟨bytes, appended, reads⟩ := (write_read (array [int 7]) .empty).2 _ written
  rw [Writer.toList_append] at appended
  obtain rfl := List.append_cancel_left appended
  obtain ⟨after, ok, unread, _⟩ :=
    reads (.ofCursor (.ofBytes [0x91, 0x07, 0xc0]) 1) [0xc0] rfl (by decide)
  exact ⟨after, ok, unread⟩

end MsgPack.Value
