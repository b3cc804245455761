import MsgPack.Proofs.Wire.Spelling

/-!
# What values of any shape say

The content of a value.  Values that differ only in whether an integer is kept as signed say
the same, and what a value is written as is one of the spellings of its content.
-/

namespace MsgPack

/-- An integer in a form that holds it stands for its number. -/
theorem IntegerForm.stands_encode {form : IntegerForm} {number : Int}
    (held : form.Holds number) : (Content.integer number).Stands (form.encode number) := by
  obtain ⟨code, bytes, encoded, known, whole, same⟩ := encode_gives held
  rw [encoded]
  exact ⟨form, known, whole, by rw [same, toInt_word held]⟩

namespace Value

/-- An integer off the wire is told from its number. -/
theorem ofInteger_eq (integer : Integer) : ofInteger integer = ofInt integer.toInt := by
  cases integer with
  | unsigned word =>
      rw [ofInteger, ofInt, Integer.toInt, if_neg (Int.not_lt.2 (Int.natCast_nonneg _)),
        Int.toNat_natCast, UInt64.ofNat_toNat]
  | signed word =>
      have sign : 0 ≤ word ↔ 0 ≤ word.toInt := Int64.le_iff_toInt_le
      rw [ofInteger, ofInt, Integer.toInt]
      by_cases positive : 0 ≤ word
      · rw [if_pos positive, if_neg (Int.not_lt.2 (sign.1 positive)), Int64.toNat_toInt,
          ← Int64.toNat_toUInt64_of_le positive, UInt64.ofNat_toNat]
      · rw [if_neg positive, if_pos (Int.lt_of_not_ge fun given => positive (sign.2 given)),
          Int64.ofInt_toInt]

/-! ## The content of a value -/

mutual

/-- What a value says. -/
def content : Value → Content
  | nil => .nil
  | bool truth => .bool truth
  | int word => .integer word.toInt
  | uint word => .integer word.toNat
  | float32 bits => .float32 bits
  | float64 bits => .float64 bits
  | string text => .string (Utf8.encode text)
  | binary bytes => .binary bytes
  | array items => .array (contentItems items)
  | map entries => .map (contentEntries entries)
  | extension typeCode payload => .extension typeCode payload

/-- What the items of an array say. -/
def contentItems : List Value → List Content
  | [] => []
  | item :: items => content item :: contentItems items

/-- What the keys and the values of a map say in turn. -/
def contentEntries : List (Value × Value) → List Content
  | [] => []
  | (key, value) :: entries => content key :: content value :: contentEntries entries

end

theorem length_contentItems (items : List Value) : (contentItems items).length = items.length := by
  induction items with
  | nil => rfl
  | cons item items ih => rw [contentItems, List.length_cons, ih, List.length_cons]

theorem length_contentEntries (entries : List (Value × Value)) :
    (contentEntries entries).length = entries.length * 2 := by
  induction entries with
  | nil => rfl
  | cons entry entries ih =>
      rw [contentEntries, List.length_cons, List.length_cons, ih, List.length_cons, Nat.succ_mul]

theorem contentItems_turns (entries : List (Value × Value)) :
    contentItems (turns entries) = contentEntries entries := by
  induction entries with
  | nil => rfl
  | cons entry entries ih => rw [turns, contentItems, contentItems, ih, contentEntries]

/-- An integer off the wire says its number, whatever it is kept as. -/
theorem content_ofInteger (integer : Integer) :
    (ofInteger integer).content = .integer integer.toInt := by
  cases integer with
  | unsigned word => rfl
  | signed word =>
      rw [ofInteger]
      by_cases positive : 0 ≤ word
      · have sign : 0 ≤ word.toInt := Int64.le_iff_toInt_le.1 positive
        rw [if_pos positive, content, Integer.toInt, Int64.toNat_toUInt64_of_le positive,
          ← Int64.toNat_toInt, Int.toNat_of_nonneg sign]
      · rw [if_neg positive]
        rfl

theorem fits_ofInteger (integer : Integer) : (ofInteger integer).Fits := by
  cases integer with
  | unsigned word => trivial
  | signed word =>
      rw [ofInteger]
      split <;> trivial

/-! ## Written values -/

theorem spells_compactInteger {number : Int} (low : -0x8000000000000000 ≤ number)
    (high : number < 0x10000000000000000) :
    Spells [.integer number] (compactInteger number) :=
  (IntegerForm.stands_encode (IntegerForm.shortest_holds low high)).spells

theorem stands_string {text : String} (fits : (string text).Fits) :
    (string text).content.Stands (string text).encoding :=
  (Content.stands_string _ _).2 ⟨_, rfl, strHeader_gives fits⟩

theorem stands_binary {bytes : Bytes} (fits : (binary bytes).Fits) :
    (binary bytes).content.Stands (binary bytes).encoding :=
  (Content.stands_binary _ _).2 ⟨_, rfl, binHeader_gives fits⟩

theorem stands_extension {typeCode : Int8} {payload : Bytes}
    (fits : (extension typeCode payload).Fits) :
    (extension typeCode payload).content.Stands (extension typeCode payload).encoding := by
  obtain ⟨code, bytes, form, same, known, given⟩ := extensionHeader_gives typeCode fits
  exact (Content.stands_extension _ _ _).2 ⟨_, rfl, code, bytes, form, same, known, given⟩

mutual

/-- A value that fits is written as a spelling of its content. -/
theorem spells_encoding : ∀ {value : Value}, value.Fits → Spells [value.content] value.encoding
  | nil, _ => Content.Stands.spells ⟨rfl, rfl⟩
  | bool truth, _ => by
      apply Content.Stands.spells
      cases truth <;> exact ⟨rfl, rfl⟩
  | int word, _ => spells_compactInteger word.le_toInt (Int.lt_trans word.toInt_lt (by decide))
  | uint word, _ => spells_compactInteger (by omega) (Int.ofNat_lt.2 word.toNat_lt)
  | float32 bits, _ => by
      apply Content.Stands.spells
      refine ⟨rfl, BigEndian.length_encode _ _, ?_⟩
      rw [BigEndian.decode_encode_of_lt bits.toNat_lt, UInt32.ofNat_toNat]
  | float64 bits, _ => by
      apply Content.Stands.spells
      refine ⟨rfl, BigEndian.length_encode _ _, ?_⟩
      rw [BigEndian.decode_encode_of_lt bits.toNat_lt, UInt64.ofNat_toNat]
  | string text, fits => (stands_string fits).spells
  | binary bytes, fits => (stands_binary fits).spells
  | array items, ⟨count, fits⟩ => by
      have header := arrayHeader_gives count
      rw [← length_contentItems items] at header
      rw [content, encoding, ← length_contentItems items]
      exact Spells.array_iff.2 ⟨_, _, rfl, header, spells_encodingItems fits⟩
  | map entries, ⟨count, fits⟩ => by
      rw [content, encoding]
      exact Spells.map_iff.2 ⟨_, _, _, rfl, mapHeader_gives count, length_contentEntries entries,
        spells_encodingEntries fits⟩
  | extension typeCode payload, fits => (stands_extension fits).spells

theorem spells_encodingItems : ∀ {items : List Value}, FitsItems items →
    Spells (contentItems items) (encodingItems items)
  | [], _ => .done
  | _ :: _, ⟨first, others⟩ =>
      (spells_encoding first).append (spells_encodingItems others)

theorem spells_encodingEntries : ∀ {entries : List (Value × Value)}, FitsEntries entries →
    Spells (contentEntries entries) (encodingEntries entries)
  | [], _ => .done
  | (_, _) :: _, ⟨first, second, others⟩ =>
      ((spells_encoding first).append (spells_encoding second)).append
        (spells_encodingEntries others)

end

end Value

end MsgPack
