import MsgPack.Proofs.Reader.Takes
import MsgPack.Proofs.Text.Utf8

/-!
# Reading what is written

What the reads of single values make of the bytes that are written for these values: they
give the values back.
-/

namespace MsgPack.Read

/-! ## Nil, truth values and numbers -/

theorem takes_nil : Takes 0 nil [Format.nil.code] () :=
  .of_acceptsAfter (AcceptsAfter.nil (Format.ofCode_code .nil)) fun _ => rfl

/-- Nil is read where it is next. -/
theorem takes_tryNil : Takes 0 tryNil [Format.nil.code] true := by
  have skipped : Takes 0 (do skipByte; return true) [Format.nil.code] true :=
    .of_acceptsAfter (AcceptsAfter.skipByteThen true) fun _ => ⟨rfl, rfl⟩
  simp only [tryNil, peekIsNil, peekFormat, bind_assoc, pure_bind]
  apply Takes.peekThen
  simp only [Format.ofCode_code, decide_true, if_true]
  exact skipped

/-- Anything else is left as it is. -/
theorem takesBefore_tryNil {code : UInt8} {bytes : Bytes} (other : Format.ofCode code ≠ .nil) :
    TakesBefore (code :: bytes) tryNil [] false := by
  intro reader rest unread
  refine ⟨reader, ?_, .refl reader⟩
  simp only [tryNil, peekIsNil, peekFormat, bind_assoc, pure_bind]
  rw [bind_of_ok (peekCode_eq unread)]
  simp only [decide_eq_true_eq, if_neg other]
  rfl

theorem takes_tryNilThen {α : Type} {levels : Nat} {code : UInt8} {bytes : Bytes}
    {next : Bool → Read α} {result : α} (other : Format.ofCode code ≠ .nil)
    (tail : Takes levels (next false) (code :: bytes) result) :
    Takes levels (tryNil >>= next) (code :: bytes) result :=
  (takesBefore_tryNil other).bind tail

theorem takes_bool (truth : Bool) :
    Takes 0 bool [if truth then Format.true.code else Format.false.code] truth := by
  cases truth with
  | false => exact .of_acceptsAfter (AcceptsAfter.bool rfl) fun _ => ⟨rfl, rfl⟩
  | true => exact .of_acceptsAfter (AcceptsAfter.bool rfl) fun _ => ⟨rfl, rfl⟩

/-- An integer in any form that holds it. -/
theorem takes_integerAs (expected : Expected) {form : IntegerForm} {number : Int}
    (held : form.Holds number) :
    Takes 0 (integerAs expected) (form.encode number) (form.word number) := by
  obtain ⟨code, bytes, encoded, known, length, gives⟩ := IntegerForm.encode_gives held
  rw [encoded, ← gives]
  exact .of_acceptsAfter (AcceptsAfter.integerAs known expected) fun _ => ⟨length, rfl⟩

/-- A number of a range is read as itself from any form that holds it. -/
theorem takes_intAs {range : IntRange} {form : IntegerForm} {number : Int}
    (contained : range.Contains number) (held : form.Holds number) :
    Takes 0 (int range) (form.encode number) number := by
  have same := IntegerForm.toInt_word held
  apply (takes_integerAs (.range range) held).andThen
  rw [fit, Integer.fit?, if_pos (same.symm ▸ contained), same]
  exact .pure number

theorem takes_int {range : IntRange} {number : Int} (contained : range.Contains number) :
    Takes 0 (int range) (compactInteger number) number := by
  apply takes_intAs contained
  rcases contained with ⟨low, high⟩
  apply IntegerForm.shortest_holds
  · exact Int.le_trans (by cases range <;> decide) low
  · exact Int.lt_of_le_of_lt high (by cases range <;> decide)

theorem takes_float32 (bits : UInt32) :
    Takes 0 float32 (Format.float32.code :: BigEndian.encode 4 bits.toNat) bits := by
  have room : bits.toNat < BigEndian.capacity 4 := bits.toNat_lt
  refine .of_acceptsAfter (AcceptsAfter.float32 (Format.ofCode_code .float32)) fun _ =>
    ⟨BigEndian.length_encode _ _, ?_⟩
  rw [BigEndian.decode_encode_of_lt room, UInt32.ofNat_toNat]

theorem takes_float64 (bits : UInt64) :
    Takes 0 float64 (Format.float64.code :: BigEndian.encode 8 bits.toNat) bits := by
  have room : bits.toNat < BigEndian.capacity 8 := bits.toNat_lt
  refine .of_acceptsAfter (AcceptsAfter.float64 (Format.ofCode_code .float64)) fun _ =>
    ⟨BigEndian.length_encode _ _, ?_⟩
  rw [BigEndian.decode_encode_of_lt room, UInt64.ofNat_toNat]

/-! ## Bytes -/

theorem takes_fixed (bytes : Bytes) : Takes 0 (fixed bytes.length) bytes bytes :=
  .of_accepts (accepts_fixed bytes.length) fun _ => ⟨rfl, rfl⟩

/-- Where it does not matter whether a slice is borrowed, its bytes are what counts. -/
theorem takes_rawBytesThen {α : Type} {bytes : Bytes} {next : Fetched Bytes → Read α} {result : α}
    (blind : ∀ bytes, next ⟨bytes, true⟩ = next ⟨bytes, false⟩)
    (tail : Takes 0 (next ⟨bytes, false⟩) [] result) :
    Takes 0 (rawBytes bytes.length >>= next) bytes result := by
  rw [rawBytesThen_eq bytes.length blind]
  exact (takes_fixed bytes).andThen tail

/-! ## Headers -/

/-- The header of a kind gives its length. -/
theorem takes_lengthAs {form? : Format → Option LengthForm} {header : Bytes} {length : Nat}
    (gives : HeaderGives form? header length) (expected : Expected) :
    Takes 0 (lengthAs form? expected) header length := by
  rcases gives with ⟨code, bytes, form, rfl, known, given⟩
  exact .of_acceptsAfter (AcceptsAfter.lengthAs known expected) fun _ => given

theorem takes_strHeader {length : Nat} (fits : length < 0x100000000) :
    Takes 0 strHeader (MsgPack.strHeader length) length :=
  takes_lengthAs (strHeader_gives fits) .str

theorem takes_binHeader {length : Nat} (fits : length < 0x100000000) :
    Takes 0 binHeader (MsgPack.binHeader length) length :=
  takes_lengthAs (binHeader_gives fits) .bin

/-- The header of an array, before enough bytes for its items. -/
theorem takesBefore_arrayHeader {count : Nat} {others : Bytes} (fits : count < 0x100000000)
    (enough : count ≤ others.length) :
    TakesBefore others arrayHeader (MsgPack.arrayHeader count) count := by
  obtain ⟨code, bytes, form, same, known, given⟩ := arrayHeader_gives fits
  rw [same]
  exact .of_count (AcceptsAfter.arrayHeader known) given enough

theorem takes_arrayHeaderThen {α : Type} {levels count : Nat} {others : Bytes}
    {next : Nat → Read α} {result : α} (fits : count < 0x100000000)
    (enough : count ≤ others.length) (tail : Takes levels (next count) others result) :
    Takes levels (arrayHeader >>= next) (MsgPack.arrayHeader count ++ others) result :=
  (takesBefore_arrayHeader fits enough).bind tail

/-- The header of a map, before enough bytes for its entries. -/
theorem takesBefore_mapHeader {count : Nat} {others : Bytes} (fits : count < 0x100000000)
    (enough : count * 2 ≤ others.length) :
    TakesBefore others mapHeader (MsgPack.mapHeader count) count := by
  obtain ⟨code, bytes, form, same, known, given⟩ := mapHeader_gives fits
  rw [same]
  exact .of_count (AcceptsAfter.mapHeader known) given enough

theorem takes_mapHeaderThen {α : Type} {levels count : Nat} {others : Bytes}
    {next : Nat → Read α} {result : α} (fits : count < 0x100000000)
    (enough : count * 2 ≤ others.length) (tail : Takes levels (next count) others result) :
    Takes levels (mapHeader >>= next) (MsgPack.mapHeader count ++ others) result :=
  (takesBefore_mapHeader fits enough).bind tail

theorem takes_extensionHeader (typeCode : Int8) {length : Nat} (fits : length < 0x100000000) :
    Takes 0 extensionHeader (MsgPack.extensionHeader typeCode length) ⟨typeCode, length⟩ := by
  obtain ⟨code, bytes, form, same, known, given⟩ := extensionHeader_gives typeCode fits
  rw [same]
  exact .of_acceptsAfter (AcceptsAfter.extensionHeader known) fun _ => given

/-- The header of an extension with the type code that is wanted. -/
theorem takes_extensionHeaderWith (typeCode : Int8) {length : Nat} (fits : length < 0x100000000) :
    Takes 0 (extensionHeaderWith typeCode) (MsgPack.extensionHeader typeCode length)
      ⟨typeCode, length⟩ := by
  apply (takes_extensionHeader typeCode fits).andThen
  rw [if_pos rfl]
  exact .pure _

/-! ## Text, binary data and extensions -/

theorem takes_string {text : String} (fits : (Utf8.encode text).length < 0x100000000) :
    Takes 0 string (MsgPack.strHeader (Utf8.encode text).length ++ Utf8.encode text) text := by
  simp only [string, str, bind_assoc]
  apply (takes_strHeader fits).bind
  apply takes_rawBytesThen
  · intro bytes
    cases Utf8.decode bytes <;> simp only [pure_bind]
  · simp only [Utf8.decode_encode, pure_bind]
    exact .pure text

/-- Binary data, where it does not matter whether they are borrowed. -/
theorem takes_binThen {α : Type} {bytes : Bytes} {next : Fetched Bytes → Read α} {result : α}
    (fits : bytes.length < 0x100000000)
    (blind : ∀ bytes, next ⟨bytes, true⟩ = next ⟨bytes, false⟩)
    (tail : Takes 0 (next ⟨bytes, false⟩) [] result) :
    Takes 0 (bin >>= next) (MsgPack.binHeader bytes.length ++ bytes) result := by
  simp only [bin, bind_assoc]
  exact (takes_binHeader fits).bind (takes_rawBytesThen blind tail)

/-- An extension, where it does not matter whether its payload is borrowed. -/
theorem takes_extensionThen {α : Type} {typeCode : Int8} {payload : Bytes}
    {next : Extension → Read α} {result : α} (fits : payload.length < 0x100000000)
    (blind : ∀ typeCode bytes, next ⟨typeCode, bytes, true⟩ = next ⟨typeCode, bytes, false⟩)
    (tail : Takes 0 (next ⟨typeCode, payload, false⟩) [] result) :
    Takes 0 (extension >>= next)
      (MsgPack.extensionHeader typeCode payload.length ++ payload) result := by
  simp only [extension, bind_assoc, pure_bind]
  exact (takes_extensionHeader typeCode fits).bind (takes_rawBytesThen (blind typeCode) tail)

/-- An extension of known type code and length. -/
theorem takes_fixedExtension (typeCode : Int8) {payload : Bytes}
    (fits : payload.length < 0x100000000) :
    Takes 0 (fixedExtension payload.length typeCode)
      (MsgPack.extensionHeader typeCode payload.length ++ payload) payload := by
  apply (takes_extensionHeaderWith typeCode fits).bind
  rw [if_pos rfl]
  exact takes_fixed payload

/-- Binary data of known length. -/
theorem takes_fixedBin (typeName : String) {bytes : Bytes} (fits : bytes.length < 0x100000000) :
    Takes 0 (fixedBin bytes.length typeName) (MsgPack.binHeader bytes.length ++ bytes) bytes := by
  apply (takes_binHeader fits).bind
  rw [if_pos rfl]
  exact takes_fixed bytes

end MsgPack.Read
