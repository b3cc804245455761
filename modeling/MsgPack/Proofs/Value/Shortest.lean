import MsgPack.Proofs.Value.Retold
import MsgPack.Proofs.Wire.Numeral

/-!
# The shortest spelling of a value

Of all bytes that are read as a value, those that are written have the least length.  The
argument is about spellings, which do not mention a reader: a form that gives an integer holds
it, and no form that holds it is shorter than the one that is written; the same goes for the
forms of a length.  A spelling of an array or a map is a header and spellings of what is
inside.
-/

namespace MsgPack

/-! ## Integers -/

namespace IntegerForm

/-- A form holds the integer that it gives. -/
theorem holds_value {form : IntegerForm} {code : UInt8} {bytes : Bytes}
    (known : (Format.ofCode code).integer? = some form)
    (whole : bytes.length = form.payloadLength) : form.Holds (form.value code bytes).toInt := by
  have format := eq_format known
  cases form with
  | positiveFix =>
      have low := UInt8.lt_iff_toNat_lt.1 ((Format.ofCode_eq_positiveFixInt code).1 format)
      simp only [UInt8.reduceToNat] at low
      rw [toInt_value_positiveFix]
      exact ⟨by omega, by omega⟩
  | negativeFix =>
      have high := (Format.ofCode_eq_negativeFixInt code).1 format
      have low := UInt8.le_iff_toNat_le.1 high
      have bound := code.toNat_lt
      simp only [UInt8.reduceToNat] at low
      rw [toInt_value_negativeFix high]
      exact ⟨by omega, by omega⟩
  | unsigned width =>
      have bound := BigEndian.decode_lt bytes
      rw [whole] at bound
      rw [toInt_value_unsigned code whole]
      exact ⟨by omega, Int.ofNat_lt.2 bound⟩
  | signed width =>
      have bounds := BigEndian.decodeSigned_bounds bytes
      rw [whole] at bounds
      rw [toInt_value_signed code whole]
      exact bounds

/-- An integer that a code alone can hold is written as one. -/
theorem payloadLength_shortest_of_fix {number : Int} (low : -0x20 ≤ number)
    (high : number < 0x80) : (shortest number).payloadLength = 0 := by
  unfold shortest
  by_cases positive : 0 ≤ number
  · rw [if_pos positive, if_pos high]
    rfl
  · rw [if_neg positive, if_pos low]
    rfl

/-- An integer in the range of a width, signed or not, is written in no more bytes. -/
theorem payloadLength_shortest_le_bytes {number : Int} {width : Width}
    (low : -(BigEndian.capacity width.bytes : Int) ≤ 2 * number)
    (high : number < BigEndian.capacity width.bytes) :
    (shortest number).payloadLength ≤ width.bytes := by
  unfold shortest
  cases width with
  | one =>
      have capacity : BigEndian.capacity Width.one.bytes = 0x100 := rfl
      rw [capacity] at low high
      repeat' split
      all_goals first | decide | omega
  | two =>
      have capacity : BigEndian.capacity Width.two.bytes = 0x10000 := rfl
      rw [capacity] at low high
      repeat' split
      all_goals first | decide | omega
  | four =>
      have capacity : BigEndian.capacity Width.four.bytes = 0x100000000 := rfl
      rw [capacity] at low high
      repeat' split
      all_goals first | decide | omega
  | eight =>
      repeat' split
      all_goals decide

/-- No form that holds an integer is shorter than the shortest. -/
theorem payloadLength_shortest_le {form : IntegerForm} {number : Int} (held : form.Holds number) :
    (shortest number).payloadLength ≤ form.payloadLength := by
  cases form with
  | positiveFix =>
      rcases held with ⟨low, high⟩
      exact Nat.le_of_eq (payloadLength_shortest_of_fix (by omega) high)
  | negativeFix =>
      rcases held with ⟨low, high⟩
      exact Nat.le_of_eq (payloadLength_shortest_of_fix low (by omega))
  | unsigned width =>
      rcases held with ⟨low, high⟩
      exact payloadLength_shortest_le_bytes (by omega) high
  | signed width =>
      rcases held with ⟨low, high⟩
      exact payloadLength_shortest_le_bytes low (by omega)

theorem length_encode (form : IntegerForm) (number : Int) :
    (form.encode number).length = form.payloadLength + 1 := by
  cases form with
  | positiveFix | negativeFix => exact BigEndian.length_encodeSigned 1 number
  | unsigned width | signed width =>
      exact congrArg Nat.succ (BigEndian.length_encodeSigned width.bytes number)

end IntegerForm

/-- No spelling of an integer is shorter than the one that is written. -/
theorem length_compactInteger_le {number : Int} {bytes : Bytes}
    (stands : (Content.integer number).Stands bytes) :
    (compactInteger number).length ≤ bytes.length := by
  cases bytes with
  | nil => exact stands.elim
  | cons code bytes =>
      rcases stands with ⟨form, known, whole, rfl⟩
      rw [compactInteger, IntegerForm.length_encode, List.length_cons, whole]
      exact Nat.succ_le_succ
        (IntegerForm.payloadLength_shortest_le (IntegerForm.holds_value known whole))

/-! ## Headers -/

namespace LengthForm

/-- How many bytes follow a code for its length. -/
def suffixLength : LengthForm → Nat
  | .fixed _ => 0
  | .sized width => width.bytes

/-- How many lengths a form tells apart. -/
def capacity : LengthForm → Nat
  | .fixed mask => mask.toNat + 1
  | .sized width => BigEndian.capacity width.bytes

theorem Gives.length_eq {form : LengthForm} {code : UInt8} {bytes : Bytes} {length : Nat}
    (gives : form.Gives code bytes length) : bytes.length = form.suffixLength := by
  cases form with
  | fixed mask => exact congrArg List.length gives.1
  | sized width => exact gives.1

/-- The capacity of every form, as a number. -/
theorem capacity_eq (form : LengthForm) : form.capacity =
    match form with
    | .fixed mask => mask.toNat + 1
    | .sized .one => 0x100
    | .sized .two => 0x10000
    | .sized .four => 0x100000000
    | .sized .eight => 0x10000000000000000 := by
  cases form with
  | fixed mask => rfl
  | sized width => cases width <;> rfl

/-- A form gives lengths below its capacity only. -/
theorem Gives.lt_capacity {form : LengthForm} {code : UInt8} {bytes : Bytes} {length : Nat}
    (gives : form.Gives code bytes length) : length < form.capacity := by
  cases form with
  | fixed mask =>
      rcases gives with ⟨_, rfl⟩
      rw [capacity, UInt8.toNat_and]
      exact Nat.lt_succ_of_le Nat.and_le_right
  | sized width =>
      rcases gives with ⟨whole, rfl⟩
      rw [capacity, ← whole]
      exact BigEndian.decode_lt bytes

end LengthForm

/-- A header is at least as long as another one that is no longer than any form of the kind
that has room for the length. -/
theorem HeaderGives.length_ge {form? : Format → Option LengthForm} {header shortest : Bytes}
    {length : Nat} (gives : HeaderGives form? header length)
    (within : ∀ format form, form? format = some form → length < form.capacity →
      shortest.length ≤ form.suffixLength + 1) : shortest.length ≤ header.length := by
  rcases gives with ⟨code, bytes, form, rfl, known, given⟩
  rw [List.length_cons, given.length_eq]
  exact within _ form known given.lt_capacity

theorem length_sizedHeader (format : Format) (width : Width) (length : Nat) :
    (sizedHeader format width length).length = width.bytes + 1 :=
  congrArg Nat.succ (BigEndian.length_encode width.bytes length)

theorem length_fixedHeader (format : Format) (length : Nat) :
    (fixedHeader format length).length = 1 :=
  rfl

/-- The forms of a kind of header, and the header of that kind that is written. -/
inductive ShortestHeader : (Format → Option LengthForm) → (Nat → Bytes) → Prop where
  | string : ShortestHeader Format.string? strHeader
  | binary : ShortestHeader Format.binary? binHeader
  | array : ShortestHeader Format.array? arrayHeader
  | map : ShortestHeader Format.map? mapHeader

/-- The header that is written is no longer than any form of its kind with room for the length. -/
theorem ShortestHeader.length_le_form {form? : Format → Option LengthForm}
    {shortest : Nat → Bytes} (kind : ShortestHeader form? shortest) {format : Format}
    {form : LengthForm} {length : Nat} (known : form? format = some form)
    (room : length < form.capacity) : (shortest length).length ≤ form.suffixLength + 1 := by
  rw [LengthForm.capacity_eq] at room
  cases kind <;> cases format <;> cases known
  all_goals
    simp only [UInt8.reduceToNat] at room
    simp only [strHeader, binHeader, arrayHeader, mapHeader, apply_ite List.length,
      length_fixedHeader, length_sizedHeader, LengthForm.suffixLength, Width.bytes]
    repeat' split
    all_goals omega

theorem ShortestHeader.length_le {form? : Format → Option LengthForm} {shortest : Nat → Bytes}
    (kind : ShortestHeader form? shortest) {header : Bytes} {length : Nat}
    (gives : HeaderGives form? header length) : (shortest length).length ≤ header.length :=
  gives.length_ge fun _ _ known room => kind.length_le_form known room

theorem length_extensionHeader_le {header : Bytes} {typeCode : Int8} {length : Nat}
    (gives : ExtensionGives header ⟨typeCode, length⟩) :
    (extensionHeader typeCode length).length ≤ header.length := by
  rcases gives with ⟨code, following, form, rfl, known, start, typeByte, rfl, _, given⟩
  generalize Format.ofCode code = format at known
  simp only [extensionHeader, List.length_append, List.length_cons, List.length_nil]
  apply Nat.add_le_add_right
  cases form with
  | fixed size =>
      rcases given with ⟨rfl, rfl⟩
      cases format <;> cases known <;> exact Nat.le_refl _
  | sized width =>
      have gives : (LengthForm.sized width).Gives code start length := given
      have suffix := gives.length_eq
      have room := gives.lt_capacity
      rw [LengthForm.suffixLength] at suffix
      rw [LengthForm.capacity_eq] at room
      rw [suffix]
      cases format <;> cases known <;> simp only at room
      all_goals
        split
        · exact Nat.succ_le_succ (Nat.zero_le _)
        · simp only [apply_ite List.length, length_sizedHeader, Width.bytes]
          repeat' split
          all_goals omega

/-! ## Values -/

/-- A content that holds no others stands where it is spelled. -/
theorem Spells.stands {content : Content} {bytes : Bytes} (spelled : Spells [content] bytes)
    (notArray : content.kind ≠ .array) (notMap : content.kind ≠ .map) :
    content.Stands bytes := by
  cases spelled with
  | leaf first others =>
      cases others
      rw [List.append_nil]
      exact first
  | array => exact absurd rfl notArray
  | map => exact absurd rfl notMap

namespace Value

mutual

/-- No spelling of the content of a value is shorter than the bytes of the value. -/
theorem length_encoding_le : ∀ {value : Value} {bytes : Bytes}, Spells [value.content] bytes →
    value.encoding.length ≤ bytes.length
  | nil, _, spelled => spelled.length_le
  | bool _, _, spelled => spelled.length_le
  | int word, _, spelled => length_compactInteger_le (spelled.stands nofun nofun)
  | uint word, _, spelled => length_compactInteger_le (spelled.stands nofun nofun)
  | float32 bits, bytes, spelled => by
      have stands := spelled.stands nofun nofun
      rw [encoding, List.length_cons, BigEndian.length_encode]
      cases bytes with
      | nil => exact stands.elim
      | cons code bytes => exact Nat.succ_le_succ (Nat.le_of_eq stands.2.1.symm)
  | float64 bits, bytes, spelled => by
      have stands := spelled.stands nofun nofun
      rw [encoding, List.length_cons, BigEndian.length_encode]
      cases bytes with
      | nil => exact stands.elim
      | cons code bytes => exact Nat.succ_le_succ (Nat.le_of_eq stands.2.1.symm)
  | string text, _, spelled => by
      obtain ⟨header, rfl, gives⟩ := (Content.stands_string _ _).1 (spelled.stands nofun nofun)
      rw [encoding, List.length_append, List.length_append]
      exact Nat.add_le_add_right (ShortestHeader.string.length_le gives) _
  | binary data, _, spelled => by
      obtain ⟨header, rfl, gives⟩ := (Content.stands_binary _ _).1 (spelled.stands nofun nofun)
      rw [encoding, List.length_append, List.length_append]
      exact Nat.add_le_add_right (ShortestHeader.binary.length_le gives) _
  | array items, _, spelled => by
      obtain ⟨header, inside, rfl, gives, nested⟩ := Spells.array_iff.1 spelled
      rw [length_contentItems] at gives
      rw [encoding, List.length_append, List.length_append]
      exact Nat.add_le_add (ShortestHeader.array.length_le gives) (length_encodingItems_le nested)
  | map entries, _, spelled => by
      obtain ⟨count, header, inside, rfl, gives, paired, nested⟩ := Spells.map_iff.1 spelled
      rw [length_contentEntries] at paired
      obtain rfl := Nat.eq_of_mul_eq_mul_right Nat.two_pos paired
      rw [encoding, List.length_append, List.length_append]
      exact Nat.add_le_add (ShortestHeader.map.length_le gives) (length_encodingEntries_le nested)
  | extension typeCode payload, _, spelled => by
      obtain ⟨header, rfl, gives⟩ := Spells.extension_iff.1 spelled
      rw [encoding, List.length_append, List.length_append]
      exact Nat.add_le_add_right (length_extensionHeader_le gives) _

theorem length_encodingItems_le : ∀ {items : List Value} {bytes : Bytes},
    Spells (contentItems items) bytes → (encodingItems items).length ≤ bytes.length
  | [], _, _ => Nat.zero_le _
  | item :: items, _, spelled => by
      rw [contentItems, ← List.singleton_append] at spelled
      obtain ⟨first, others, rfl, head, tail⟩ := spelled.of_append
      rw [encodingItems, List.length_append, List.length_append]
      exact Nat.add_le_add (length_encoding_le head) (length_encodingItems_le tail)

theorem length_encodingEntries_le : ∀ {entries : List (Value × Value)} {bytes : Bytes},
    Spells (contentEntries entries) bytes → (encodingEntries entries).length ≤ bytes.length
  | [], _, _ => Nat.zero_le _
  | (key, value) :: entries, _, spelled => by
      rw [contentEntries, ← List.singleton_append] at spelled
      obtain ⟨first, _, rfl, left, pair⟩ := spelled.of_append
      rw [← List.singleton_append] at pair
      obtain ⟨second, others, rfl, right, tail⟩ := pair.of_append
      simp only [encodingEntries, List.length_append]
      have keyBound := length_encoding_le left
      have valueBound := length_encoding_le right
      have othersBound := length_encodingEntries_le tail
      omega

end

/-- What a value is written as is no longer than any bytes that are read as the value in its
normal form. -/
theorem length_write_le {value : Value} {compact bytes : Bytes} {reader after : Reader}
    (written : Write.run value.write = .ok compact)
    (accepted : read reader = .ok value.normal after)
    (consumed : reader.cursor.unread = bytes ++ after.cursor.unread) :
    compact.length ≤ bytes.length := by
  obtain ⟨bytes', spelled, passed, _⟩ := retells_read accepted
  obtain rfl := List.append_cancel_right (consumed.symm.trans passed.unread)
  obtain rfl := eq_encoding_of_run written
  rw [← encoding_normal]
  exact length_encoding_le spelled

/-- One integer in the form of two bytes takes more than the shortest. -/
theorem length_write_le_wide :
    ∃ compact after, Write.run (uint 7).write = .ok compact ∧
      read (.ofCursor (.ofBytes [0xcd, 0x00, 0x07]) 1) = .ok (uint 7) after ∧
        compact.length ≤ 3 := by
  obtain ⟨after, accepted, done⟩ : ∃ after,
      read (.ofCursor (.ofBytes [0xcd, 0x00, 0x07]) 1) = .ok (uint 7) after ∧
        after.cursor.unread = [] := ⟨_, rfl, rfl⟩
  have written : Write.run (uint 7).write = .ok [0x07] := rfl
  refine ⟨_, after, written, accepted, ?_⟩
  have consumed : (Cursor.ofBytes [0xcd, 0x00, 0x07]).unread =
      [0xcd, 0x00, 0x07] ++ after.cursor.unread := by
    rw [done]
    rfl
  exact length_write_le written accepted consumed

end Value

end MsgPack
