import MsgPack.Proofs.Wire.Announcement

/-!
# Forms that hold a number

What is written in a form is what the form gives when it is read: the bytes of an integer in
any form that holds it give that integer, and the shortest header of a length gives that
length.
-/

namespace MsgPack

/-! ## Whole numbers as bytes -/

namespace BigEndian

theorem decode_encode_of_lt {count number : Nat} (held : number < capacity count) :
    decode (encode count number) = number := by
  rw [decode_encode, Nat.mod_eq_of_lt held]

/-- Reading undoes writing, also in two's complement. -/
theorem decodeSigned_encodeSigned {count : Nat} {number : Int}
    (low : -(capacity count : Int) ≤ 2 * number) (high : 2 * number < capacity count) :
    decodeSigned (encodeSigned count number) = number := by
  have positive := capacity_pos count
  have bound : number % capacity count < capacity count := Int.emod_lt_of_pos _ (by omega)
  have nonnegative : 0 ≤ number % capacity count := Int.emod_nonneg _ (by omega)
  have whole : decode (encodeSigned count number) = (number % capacity count).toNat := by
    rw [encodeSigned, decode_encode_of_lt (by omega)]
  rw [decodeSigned, whole, length_encodeSigned]
  by_cases negative : number < 0
  · have wrapped : number % capacity count = number + capacity count := by
      rw [← Int.add_emod_right, Int.emod_eq_of_lt (by omega) (by omega)]
    rw [if_neg (by omega)]
    omega
  · have same : number % capacity count = number := Int.emod_eq_of_lt (by omega) (by omega)
    rw [if_pos (by omega)]
    omega

/-- A number that is not negative is written as itself. -/
theorem encodeSigned_ofNat {count number : Nat} (held : number < capacity count) :
    encodeSigned count number = encode count number := by
  rw [encodeSigned, ← Int.natCast_emod, Int.toNat_natCast, Nat.mod_eq_of_lt held]

end BigEndian

/-! ## Integers -/

namespace IntegerForm

/-- Whether a form can hold an integer. -/
def Holds (form : IntegerForm) (number : Int) : Prop :=
  match form with
  | .positiveFix => 0 ≤ number ∧ number < 0x80
  | .negativeFix => -0x20 ≤ number ∧ number < 0
  | .unsigned width => 0 ≤ number ∧ number < BigEndian.capacity width.bytes
  | .signed width =>
      -(BigEndian.capacity width.bytes : Int) ≤ 2 * number ∧
        2 * number < BigEndian.capacity width.bytes

/-- The integer of a code and the bytes after it. -/
def value (form : IntegerForm) (code : UInt8) (bytes : Bytes) : Integer :=
  match form with
  | .positiveFix => .unsigned (UInt64.ofNat code.toNat)
  | .negativeFix => .signed (Int64.ofInt (BigEndian.decodeSigned [code]))
  | .unsigned _ => .unsigned (UInt64.ofNat (BigEndian.decode bytes))
  | .signed _ => .signed (Int64.ofInt (BigEndian.decodeSigned bytes))

/-- An integer as a form gives it. -/
def word (form : IntegerForm) (number : Int) : Integer :=
  match form with
  | .positiveFix | .unsigned _ => .unsigned (UInt64.ofNat number.toNat)
  | .negativeFix | .signed _ => .signed (Int64.ofInt number)

theorem capacity_le (width : Width) : BigEndian.capacity width.bytes ≤ 0x10000000000000000 := by
  cases width <;> decide

/-- One byte holds a number as its own code. -/
theorem encodeSigned_one (number : Int) :
    BigEndian.encodeSigned 1 number = [UInt8.ofNat (number % 256).toNat] := by
  rw [BigEndian.encodeSigned, BigEndian.encode, BigEndian.encode, BigEndian.capacity, Nat.div_one]
  rfl

theorem toNat_encodeSigned_one (number : Int) :
    (UInt8.ofNat (number % 256).toNat).toNat = (number % 256).toNat := by
  rw [UInt8.toNat_ofNat']
  omega

/-- The bytes of an integer in a form that holds it give that integer. -/
theorem encode_gives {form : IntegerForm} {number : Int} (held : form.Holds number) :
    ∃ code bytes, form.encode number = code :: bytes ∧
      (Format.ofCode code).integer? = some form ∧ bytes.length = form.payloadLength ∧
        form.value code bytes = form.word number := by
  cases form with
  | positiveFix =>
      rcases held with ⟨low, high⟩
      have byte := toNat_encodeSigned_one number
      refine ⟨_, [], encodeSigned_one number, ?_, rfl, ?_⟩
      · rw [(Format.ofCode_eq_positiveFixInt _).2]
        · rfl
        · rw [UInt8.lt_iff_toNat_lt, byte]
          simp only [UInt8.reduceToNat]
          omega
      · rw [value, word, byte, Int.emod_eq_of_lt low (by omega)]
  | negativeFix =>
      rcases held with ⟨low, high⟩
      have byte := toNat_encodeSigned_one number
      refine ⟨_, [], encodeSigned_one number, ?_, rfl, ?_⟩
      · rw [(Format.ofCode_eq_negativeFixInt _).2]
        · rfl
        · rw [UInt8.le_iff_toNat_le, byte]
          simp only [UInt8.reduceToNat]
          omega
      · have capacity : BigEndian.capacity 1 = 256 := rfl
        rw [value, word, ← encodeSigned_one, BigEndian.decodeSigned_encodeSigned]
        · rw [capacity]
          omega
        · rw [capacity]
          omega
  | unsigned width =>
      rcases held with ⟨low, high⟩
      refine ⟨_, _, rfl, ?_, BigEndian.length_encodeSigned _ _, ?_⟩
      · rw [Format.ofCode_code, integer?_format]
      · obtain ⟨natural, rfl⟩ := Int.eq_ofNat_of_zero_le low
        have room : natural < BigEndian.capacity width.bytes := Int.ofNat_lt.1 high
        rw [value, word, BigEndian.encodeSigned_ofNat room, BigEndian.decode_encode_of_lt room,
          Int.toNat_natCast]
  | signed width =>
      rcases held with ⟨low, high⟩
      refine ⟨_, _, rfl, ?_, BigEndian.length_encodeSigned _ _, ?_⟩
      · rw [Format.ofCode_code, integer?_format]
      · rw [value, word, BigEndian.decodeSigned_encodeSigned low high]

/-- A form gives the integer that it holds. -/
theorem toInt_word {form : IntegerForm} {number : Int} (held : form.Holds number) :
    (form.word number).toInt = number := by
  have unsigned (natural : Nat) (room : natural < 0x10000000000000000) :
      (Integer.unsigned (UInt64.ofNat natural)).toInt = natural := by
    rw [Integer.toInt, UInt64.toNat_ofNat']
    omega
  have signed (room : -0x8000000000000000 ≤ number ∧ number < 0x8000000000000000) :
      (Integer.signed (Int64.ofInt number)).toInt = number := by
    rw [Integer.toInt, Int64.toInt_ofInt_of_le room.1 room.2]
  cases form with
  | positiveFix =>
      rcases held with ⟨low, high⟩
      rw [word, unsigned _ (by omega), Int.toNat_of_nonneg low]
  | negativeFix =>
      rcases held with ⟨low, high⟩
      exact signed (by omega)
  | unsigned width =>
      rcases held with ⟨low, high⟩
      have bound := capacity_le width
      rw [word, unsigned _ (by omega), Int.toNat_of_nonneg low]
  | signed width =>
      rcases held with ⟨low, high⟩
      have bound := capacity_le width
      exact signed (by omega)

/-- The shortest form of an integer of 64 bits holds it. -/
theorem shortest_holds {number : Int} (low : -0x8000000000000000 ≤ number)
    (high : number < 0x10000000000000000) : (shortest number).Holds number := by
  have one : BigEndian.capacity Width.one.bytes = 0x100 := rfl
  have two : BigEndian.capacity Width.two.bytes = 0x10000 := rfl
  have four : BigEndian.capacity Width.four.bytes = 0x100000000 := rfl
  have eight : BigEndian.capacity Width.eight.bytes = 0x10000000000000000 := rfl
  unfold shortest
  repeat' split
  all_goals
    simp only [Holds, one, two, four, eight]
    omega

/-- The shortest form of an integer is signed only for negative ones. -/
theorem word_shortest (number : Int) :
    (shortest number).word number =
      if 0 ≤ number then .unsigned (UInt64.ofNat number.toNat)
      else .signed (Int64.ofInt number) := by
  unfold shortest
  repeat' split
  all_goals rfl

end IntegerForm

/-! ## Lengths and counts -/

/-- A length after a code gives itself. -/
theorem sized_gives (code : UInt8) {width : Width} {length : Nat}
    (held : length < BigEndian.capacity width.bytes) :
    (LengthForm.sized width).Gives code (BigEndian.encode width.bytes length) length :=
  ⟨BigEndian.length_encode _ _, (BigEndian.decode_encode_of_lt held).symm⟩

/-- A number that is added to a code lies between the code and the code after its range, and
is what the code exceeds the first one by. -/
theorem code_add (first : UInt8) {number size : Nat} (short : number < size)
    (room : first.toNat + size < 256) :
    (first ≤ first + UInt8.ofNat number ∧ first + UInt8.ofNat number < first + UInt8.ofNat size) ∧
      number = (first + UInt8.ofNat number - first).toNat := by
  have low : (first + UInt8.ofNat number).toNat = first.toNat + number := by
    rw [UInt8.toNat_add, UInt8.toNat_ofNat']
    omega
  have high : (first + UInt8.ofNat size).toNat = first.toNat + size := by
    rw [UInt8.toNat_add, UInt8.toNat_ofNat']
    omega
  have below : first ≤ first + UInt8.ofNat number := by
    rw [UInt8.le_iff_toNat_le, low]
    exact Nat.le_add_right _ _
  refine ⟨⟨below, ?_⟩, ?_⟩
  · rw [UInt8.lt_iff_toNat_lt, low, high]
    exact Nat.add_lt_add_left short _
  · rw [UInt8.toNat_sub_of_le _ _ below, low, Nat.add_sub_cancel_left]

/-- A length in a code belongs to its format and gives itself. -/
theorem fixStr_gives {length : Nat} (short : length < 0x20) :
    Format.ofCode (Format.fixStr.code + UInt8.ofNat length) = .fixStr ∧
      length = ((Format.fixStr.code + UInt8.ofNat length) &&& 0x1f).toNat := by
  obtain ⟨range, exceeds⟩ := code_add 0xa0 short (by decide)
  exact ⟨(Format.ofCode_eq_fixStr _).2 range, (Format.fixStr_low range).symm ▸ exceeds⟩

theorem fixArray_gives {count : Nat} (short : count < 0x10) :
    Format.ofCode (Format.fixArray.code + UInt8.ofNat count) = .fixArray ∧
      count = ((Format.fixArray.code + UInt8.ofNat count) &&& 0x0f).toNat := by
  obtain ⟨range, exceeds⟩ := code_add 0x90 short (by decide)
  exact ⟨(Format.ofCode_eq_fixArray _).2 range, (Format.fixArray_low range).symm ▸ exceeds⟩

theorem fixMap_gives {count : Nat} (short : count < 0x10) :
    Format.ofCode (Format.fixMap.code + UInt8.ofNat count) = .fixMap ∧
      count = ((Format.fixMap.code + UInt8.ofNat count) &&& 0x0f).toNat := by
  obtain ⟨range, exceeds⟩ := code_add 0x80 short (by decide)
  exact ⟨(Format.ofCode_eq_fixMap _).2 range, (Format.fixMap_low range).symm ▸ exceeds⟩

/-- The bytes of a header give a length, in a form of the given kind. -/
def HeaderGives (form? : Format → Option LengthForm) (header : Bytes) (length : Nat) : Prop :=
  ∃ code bytes form, header = code :: bytes ∧ form? (Format.ofCode code) = some form ∧
    form.Gives code bytes length

theorem sizedHeader_gives {form? : Format → Option LengthForm} {format : Format} {width : Width}
    {length : Nat} (known : form? format = some (.sized width))
    (held : length < BigEndian.capacity width.bytes) :
    HeaderGives form? (sizedHeader format width length) length := by
  refine ⟨format.code, _, .sized width, rfl, ?_, sized_gives _ held⟩
  rw [Format.ofCode_code, known]

theorem strHeader_gives {length : Nat} (fits : length < 0x100000000) :
    HeaderGives Format.string? (strHeader length) length := by
  unfold strHeader
  by_cases fixed : length < 0x20
  · obtain ⟨format, low⟩ := fixStr_gives fixed
    rw [if_pos fixed]
    refine ⟨_, [], .fixed 0x1f, rfl, ?_, rfl, low⟩
    rw [format]
    rfl
  by_cases one : length < 0x100
  · rw [if_neg fixed, if_pos one]
    exact sizedHeader_gives rfl one
  by_cases two : length < 0x10000
  · rw [if_neg fixed, if_neg one, if_pos two]
    exact sizedHeader_gives rfl two
  · rw [if_neg fixed, if_neg one, if_neg two]
    exact sizedHeader_gives rfl fits

theorem binHeader_gives {length : Nat} (fits : length < 0x100000000) :
    HeaderGives Format.binary? (binHeader length) length := by
  unfold binHeader
  by_cases one : length < 0x100
  · rw [if_pos one]
    exact sizedHeader_gives rfl one
  by_cases two : length < 0x10000
  · rw [if_neg one, if_pos two]
    exact sizedHeader_gives rfl two
  · rw [if_neg one, if_neg two]
    exact sizedHeader_gives rfl fits

theorem arrayHeader_gives {count : Nat} (fits : count < 0x100000000) :
    HeaderGives Format.array? (arrayHeader count) count := by
  unfold arrayHeader
  by_cases fixed : count < 0x10
  · obtain ⟨format, low⟩ := fixArray_gives fixed
    rw [if_pos fixed]
    refine ⟨_, [], .fixed 0x0f, rfl, ?_, rfl, low⟩
    rw [format]
    rfl
  by_cases two : count < 0x10000
  · rw [if_neg fixed, if_pos two]
    exact sizedHeader_gives rfl two
  · rw [if_neg fixed, if_neg two]
    exact sizedHeader_gives rfl fits

theorem mapHeader_gives {count : Nat} (fits : count < 0x100000000) :
    HeaderGives Format.map? (mapHeader count) count := by
  unfold mapHeader
  by_cases fixed : count < 0x10
  · obtain ⟨format, low⟩ := fixMap_gives fixed
    rw [if_pos fixed]
    refine ⟨_, [], .fixed 0x0f, rfl, ?_, rfl, low⟩
    rw [format]
    rfl
  by_cases two : count < 0x10000
  · rw [if_neg fixed, if_pos two]
    exact sizedHeader_gives rfl two
  · rw [if_neg fixed, if_neg two]
    exact sizedHeader_gives rfl fits

end MsgPack
