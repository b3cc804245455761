import MsgPack.Proofs.Wire.Forms

/-!
# Bytes that are integers

The ten ways to put an integer into bytes, said without reading them: a code that is the
integer itself, or a code and a word of one, two, four or eight bytes, which is a natural
number or a whole number in two's complement.  They are the codes and the words that the
forms of integers have, and what the bytes are is what their form gives.
-/

namespace MsgPack

/-- Bytes that are an integer, and the integer that they are. -/
inductive Numeral : Bytes → Int → Prop where
  | positiveFixInt {code : UInt8} (low : code < 0x80) : Numeral [code] code.toNat
  | uint8 {word : Bytes} (whole : word.length = 1) :
      Numeral (0xcc :: word) (BigEndian.decode word)
  | uint16 {word : Bytes} (whole : word.length = 2) :
      Numeral (0xcd :: word) (BigEndian.decode word)
  | uint32 {word : Bytes} (whole : word.length = 4) :
      Numeral (0xce :: word) (BigEndian.decode word)
  | uint64 {word : Bytes} (whole : word.length = 8) :
      Numeral (0xcf :: word) (BigEndian.decode word)
  | int8 {word : Bytes} (whole : word.length = 1) :
      Numeral (0xd0 :: word) (BigEndian.decodeSigned word)
  | int16 {word : Bytes} (whole : word.length = 2) :
      Numeral (0xd1 :: word) (BigEndian.decodeSigned word)
  | int32 {word : Bytes} (whole : word.length = 4) :
      Numeral (0xd2 :: word) (BigEndian.decodeSigned word)
  | int64 {word : Bytes} (whole : word.length = 8) :
      Numeral (0xd3 :: word) (BigEndian.decodeSigned word)
  | negativeFixInt {code : UInt8} (high : 0xe0 ≤ code) : Numeral [code] (code.toNat - 0x100)

/-! ## Words -/

/-- What bytes denote in two's complement is in the range of their length. -/
theorem BigEndian.decodeSigned_bounds (bytes : Bytes) :
    -(capacity bytes.length : Int) ≤ 2 * decodeSigned bytes ∧
      2 * decodeSigned bytes < capacity bytes.length := by
  have bound := decode_lt bytes
  rw [decodeSigned]
  split <;> omega

namespace IntegerForm

variable {code : UInt8} {word : Bytes} {width : Width}

theorem toInt_value_positiveFix (code : UInt8) (word : Bytes) :
    (positiveFix.value code word).toInt = code.toNat := by
  have bound := code.toNat_lt
  simp only [value, Integer.toInt, UInt64.toNat_ofNat']
  omega

/-- The upper codes are the negative numbers of one byte. -/
theorem toInt_value_negativeFix (high : 0xe0 ≤ code) (word : Bytes) :
    (negativeFix.value code word).toInt = code.toNat - 0x100 := by
  have low := UInt8.le_iff_toNat_le.1 high
  have bound := code.toNat_lt
  simp only [UInt8.reduceToNat] at low
  have one : BigEndian.capacity [code].length = 256 := rfl
  have whole : BigEndian.decode [code] = code.toNat := Nat.zero_add _
  have number : BigEndian.decodeSigned [code] = (code.toNat : Int) - 256 := by
    rw [BigEndian.decodeSigned, one, whole, if_neg (by omega)]
    rfl
  rw [value, number, Integer.toInt, Int64.toInt_ofInt_of_le (by omega) (by omega)]

theorem toInt_value_unsigned (code : UInt8) (whole : word.length = width.bytes) :
    ((unsigned width).value code word).toInt = BigEndian.decode word := by
  have bound := BigEndian.decode_lt word
  have room := capacity_le width
  rw [whole] at bound
  simp only [value, Integer.toInt, UInt64.toNat_ofNat']
  omega

theorem toInt_value_signed (code : UInt8) (whole : word.length = width.bytes) :
    ((signed width).value code word).toInt = BigEndian.decodeSigned word := by
  have bounds := BigEndian.decodeSigned_bounds word
  have room := capacity_le width
  rw [whole] at bounds
  rw [value, Integer.toInt, Int64.toInt_ofInt_of_le (by omega) (by omega)]

/-- A format that has a form of integers is the format of that form. -/
theorem eq_format {format : Format} {form : IntegerForm} (known : format.integer? = some form) :
    format = form.format := by
  cases format <;> cases known <;> rfl

end IntegerForm

/-! ## Forms -/

namespace Numeral

variable {code : UInt8} {bytes word : Bytes} {number : Int} {width : Width}

/-- A code and a word of an unsigned form. -/
theorem of_unsigned (format : Format.ofCode code = (IntegerForm.unsigned width).format)
    (whole : word.length = width.bytes) : Numeral (code :: word) (BigEndian.decode word) := by
  have owned := Format.code_ofCode code
  rw [format] at owned
  cases width with
  | one => exact owned (by decide) ▸ uint8 whole
  | two => exact owned (by decide) ▸ uint16 whole
  | four => exact owned (by decide) ▸ uint32 whole
  | eight => exact owned (by decide) ▸ uint64 whole

/-- A code and a word of a signed form. -/
theorem of_signed (format : Format.ofCode code = (IntegerForm.signed width).format)
    (whole : word.length = width.bytes) :
    Numeral (code :: word) (BigEndian.decodeSigned word) := by
  have owned := Format.code_ofCode code
  rw [format] at owned
  cases width with
  | one => exact owned (by decide) ▸ int8 whole
  | two => exact owned (by decide) ▸ int16 whole
  | four => exact owned (by decide) ▸ int32 whole
  | eight => exact owned (by decide) ▸ int64 whole

/-- A code with a form of integers and a word of the length that the form wants are an integer,
the one that the form gives. -/
theorem of_form {form : IntegerForm} (known : (Format.ofCode code).integer? = some form)
    (whole : word.length = form.payloadLength) :
    Numeral (code :: word) (form.value code word).toInt := by
  have format := IntegerForm.eq_format known
  cases form with
  | positiveFix =>
      obtain rfl := List.length_eq_zero_iff.1 whole
      rw [IntegerForm.toInt_value_positiveFix]
      exact positiveFixInt ((Format.ofCode_eq_positiveFixInt code).1 format)
  | negativeFix =>
      obtain rfl := List.length_eq_zero_iff.1 whole
      have high := (Format.ofCode_eq_negativeFixInt code).1 format
      rw [IntegerForm.toInt_value_negativeFix high]
      exact negativeFixInt high
  | unsigned width =>
      rw [IntegerForm.toInt_value_unsigned code whole]
      exact of_unsigned format whole
  | signed width =>
      rw [IntegerForm.toInt_value_signed code whole]
      exact of_signed format whole

/-- An integer is some form's code and word, and is what the form gives. -/
theorem exists_form (numeral : Numeral bytes number) : ∃ code word form, bytes = code :: word ∧
    (Format.ofCode code).integer? = some form ∧ word.length = form.payloadLength ∧
      (form.value code word).toInt = number := by
  have unsigned {code : UInt8} {word : Bytes} {width : Width}
      (known : (Format.ofCode code).integer? = some (.unsigned width))
      (whole : word.length = width.bytes) : ∃ code' word' form, code :: word = code' :: word' ∧
        (Format.ofCode code').integer? = some form ∧ word'.length = form.payloadLength ∧
          (form.value code' word').toInt = BigEndian.decode word :=
    ⟨code, word, .unsigned width, rfl, known, whole, IntegerForm.toInt_value_unsigned code whole⟩
  have signed {code : UInt8} {word : Bytes} {width : Width}
      (known : (Format.ofCode code).integer? = some (.signed width))
      (whole : word.length = width.bytes) : ∃ code' word' form, code :: word = code' :: word' ∧
        (Format.ofCode code').integer? = some form ∧ word'.length = form.payloadLength ∧
          (form.value code' word').toInt = BigEndian.decodeSigned word :=
    ⟨code, word, .signed width, rfl, known, whole, IntegerForm.toInt_value_signed code whole⟩
  cases numeral with
  | @positiveFixInt code low =>
      refine ⟨code, [], .positiveFix, rfl, ?_, rfl, IntegerForm.toInt_value_positiveFix code []⟩
      rw [(Format.ofCode_eq_positiveFixInt code).2 low]
      rfl
  | uint8 whole => exact unsigned rfl whole
  | uint16 whole => exact unsigned rfl whole
  | uint32 whole => exact unsigned rfl whole
  | uint64 whole => exact unsigned rfl whole
  | int8 whole => exact signed rfl whole
  | int16 whole => exact signed rfl whole
  | int32 whole => exact signed rfl whole
  | int64 whole => exact signed rfl whole
  | @negativeFixInt code high =>
      refine ⟨code, [], .negativeFix, rfl, ?_, rfl, IntegerForm.toInt_value_negativeFix high []⟩
      rw [(Format.ofCode_eq_negativeFixInt code).2 high]
      rfl

/-- The codes and the words that are integers are those that have a form of integers. -/
theorem exists_iff : (∃ number, Numeral (code :: word) number) ↔
    ∃ form, (Format.ofCode code).integer? = some form ∧ word.length = form.payloadLength := by
  constructor
  · rintro ⟨number, numeral⟩
    obtain ⟨_, _, form, same, known, whole, _⟩ := numeral.exists_form
    cases same
    exact ⟨form, known, whole⟩
  · rintro ⟨form, known, whole⟩
    exact ⟨_, of_form known whole⟩

/-- An integer in a form that holds it is that integer. -/
theorem encode {form : IntegerForm} (held : form.Holds number) :
    Numeral (form.encode number) number := by
  obtain ⟨code, word, encoded, known, whole, same⟩ := IntegerForm.encode_gives held
  have numeral := of_form known whole
  rw [same, IntegerForm.toInt_word held] at numeral
  rwa [encoded]

end Numeral

end MsgPack
