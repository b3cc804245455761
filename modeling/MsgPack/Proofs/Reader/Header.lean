import MsgPack.Proofs.Reader.Bytes
import MsgPack.Proofs.Wire.Forms

/-!
# Numbers and headers

The grammars of the numbers, lengths and counts that stand in a code or after it.  Each form
says which bytes follow its code and what they give; the reads of single values accept
exactly these bytes.
-/

namespace MsgPack

/-! ## What forms give -/

/-- The bytes after the code of an extension, and the header they give. -/
def ExtensionForm.Gives (form : ExtensionForm) (bytes : Bytes) (header : Read.ExtensionHeader) :
    Prop :=
  ∃ length typeByte, bytes = length ++ [typeByte] ∧ header.typeCode = Read.typeCodeOf [typeByte] ∧
    match form with
    | .fixed size => length = [] ∧ header.length = size
    | .sized width => length.length = width.bytes ∧ header.length = BigEndian.decode length

/-- A byte is the type code that was written as it. -/
theorem Read.typeCodeOf_toUInt8 (typeCode : Int8) :
    Read.typeCodeOf [typeCode.toUInt8] = typeCode := by
  have byte : ∀ byte : UInt8, Read.typeCodeOf [byte] = byte.toInt8 :=
    Format.forall_code (by decide +kernel)
  rw [byte]
  rfl

/-- The bytes of the header of an extension give that header. -/
theorem extensionHeader_gives (typeCode : Int8) {length : Nat} (fits : length < 0x100000000) :
    ∃ code bytes form, extensionHeader typeCode length = code :: bytes ∧
      (Format.ofCode code).extension? = some form ∧
        form.Gives bytes ⟨typeCode, length⟩ := by
  have known := (Read.typeCodeOf_toUInt8 typeCode).symm
  unfold extensionHeader
  cases fixed : fixedExtensionFormat? length with
  | some format =>
      have form : format.extension? = some (.fixed length) := by
        unfold fixedExtensionFormat? at fixed
        split at fixed <;> cases fixed <;> rfl
      refine ⟨format.code, _, .fixed length, rfl, ?_, [], _, rfl, known, rfl, rfl⟩
      rw [Format.ofCode_code, form]
  | none =>
      have sized {format : Format} {width : Width}
          (form : format.extension? = some (.sized width))
          (held : length < BigEndian.capacity width.bytes) :
          ∃ code bytes form, sizedHeader format width length ++ [typeCode.toUInt8] =
            code :: bytes ∧ (Format.ofCode code).extension? = some form ∧
              form.Gives bytes ⟨typeCode, length⟩ := by
        refine ⟨format.code, _, .sized width, rfl, ?_, _, _, rfl, known,
          BigEndian.length_encode _ _, (BigEndian.decode_encode_of_lt held).symm⟩
        rw [Format.ofCode_code, form]
      by_cases one : length < 0x100
      · simp only [if_pos one]
        exact sized rfl one
      by_cases two : length < 0x10000
      · simp only [if_neg one, if_pos two]
        exact sized rfl two
      · simp only [if_neg one, if_neg two]
        exact sized rfl fits

namespace Read.AcceptsAfter

variable {code : UInt8}

/-! ## Nil, truth values and numbers -/

theorem nil (format : Format.ofCode code = .nil) :
    AcceptsAfter code Read.nil fun bytes _ _ => bytes = [] := by
  apply peekThen
  rw [if_pos format]
  exact skipByte

/-- A number after a code. -/
theorem suffixThen (width : Width) {α : Type} (convert : Bytes → α) :
    AcceptsAfter code (return convert (← Read.suffix width)) fun bytes result _ =>
      bytes.length = width.bytes ∧ result = convert bytes := by
  apply ((suffix width).mapped convert).congr
  intro bytes result left
  constructor
  · rintro ⟨length, rfl⟩
    exact ⟨bytes, ⟨length, rfl⟩, rfl⟩
  · rintro ⟨_, ⟨length, rfl⟩, rfl⟩
    exact ⟨length, rfl⟩

/-- A number in a code. -/
theorem skipByteThen {α : Type} (number : α) :
    AcceptsAfter code (do Read.skipByte; return number) fun bytes result _ =>
      bytes = [] ∧ result = number := by
  apply (skipByte.mapped fun _ => number).congr
  intro bytes result left
  constructor
  · rintro ⟨rfl, rfl⟩
    exact ⟨(), rfl, rfl⟩
  · rintro ⟨_, rfl, rfl⟩
    exact ⟨rfl, rfl⟩

theorem bool {truth : Bool} (form : (Format.ofCode code).boolean? = some truth) :
    AcceptsAfter code Read.bool fun bytes result _ => bytes = [] ∧ result = truth := by
  apply peekThen
  simp only [form]
  exact skipByteThen truth

theorem integerOf (form : IntegerForm) :
    AcceptsAfter code (Read.integerOf code form) fun bytes number _ =>
      bytes.length = form.payloadLength ∧ number = form.value code bytes := by
  cases form with
  | positiveFix =>
      exact (skipByteThen _).congr fun _ _ _ => and_congr_left' List.length_eq_zero_iff
  | negativeFix =>
      exact (skipByteThen _).congr fun _ _ _ => and_congr_left' List.length_eq_zero_iff
  | unsigned width => exact suffixThen width _
  | signed width => exact suffixThen width _

theorem integerAs {form : IntegerForm} (integer : (Format.ofCode code).integer? = some form)
    (expected : Expected) :
    AcceptsAfter code (Read.integerAs expected) fun bytes number _ =>
      bytes.length = form.payloadLength ∧ number = form.value code bytes := by
  apply peekThen
  simp only [integer]
  exact integerOf form

theorem float32 (format : Format.ofCode code = .float32) :
    AcceptsAfter code Read.float32 fun bytes result _ =>
      bytes.length = 4 ∧ result = UInt32.ofNat (BigEndian.decode bytes) := by
  apply peekThen
  simp only [format, Format.float?]
  exact suffixThen .four fun bytes => UInt32.ofNat (BigEndian.decode bytes)

theorem float64 (format : Format.ofCode code = .float64) :
    AcceptsAfter code Read.float64 fun bytes result _ =>
      bytes.length = 8 ∧ result = UInt64.ofNat (BigEndian.decode bytes) := by
  apply peekThen
  simp only [format, Format.float?]
  exact suffixThen .eight fun bytes => UInt64.ofNat (BigEndian.decode bytes)

theorem float64_single (format : Format.ofCode code = .float32) :
    AcceptsAfter code Read.float64 fun bytes result _ =>
      bytes.length = 4 ∧ result = Float.widen (UInt32.ofNat (BigEndian.decode bytes)) := by
  apply peekThen
  simp only [format, Format.float?]
  exact suffixThen .four fun bytes => Float.widen (UInt32.ofNat (BigEndian.decode bytes))

/-! ## Headers -/

theorem lengthOf (form : LengthForm) :
    AcceptsAfter code (Read.lengthOf code form) fun bytes length _ =>
      form.Gives code bytes length := by
  cases form with
  | fixed mask => exact skipByteThen _
  | sized width => exact suffixThen width _

theorem lengthAs {form? : Format → Option LengthForm} {form : LengthForm}
    (known : form? (Format.ofCode code) = some form) (expected : Expected) :
    AcceptsAfter code (Read.lengthAs form? expected) fun bytes length _ =>
      form.Gives code bytes length := by
  apply peekThen
  simp only [known]
  exact lengthOf form

/-- A count with the check that as many bytes are left as it needs at least. -/
theorem countAs {form? : Format → Option LengthForm} {form : LengthForm}
    (known : form? (Format.ofCode code) = some form) (expected : Expected) (needed : Nat → Nat) :
    AcceptsAfter code (do
        let count ← Read.lengthAs form? expected
        ensure (needed count)
        return count) fun bytes count left =>
          form.Gives code bytes count ∧ needed count ≤ left := by
  refine ((lengthAs known expected).bind fun count =>
    (accepts_ensure (needed count)).bind fun _ => accepts_pure count).congr
      fun bytes count left => ?_
  constructor
  · rintro ⟨given, enough⟩
    exact ⟨count, bytes, [], (List.append_nil bytes).symm, given, (), [], [], rfl,
      ⟨rfl, by simpa using enough⟩, rfl, rfl⟩
  · rintro ⟨_, _, _, rfl, given, _, _, _, rfl, ⟨rfl, enough⟩, rfl, rfl⟩
    exact ⟨by simpa using given, by simpa using enough⟩

theorem arrayHeader {form : LengthForm} (array : (Format.ofCode code).array? = some form) :
    AcceptsAfter code Read.arrayHeader fun bytes count left =>
      form.Gives code bytes count ∧ count ≤ left :=
  countAs array .array fun count => count

theorem mapHeader {form : LengthForm} (map : (Format.ofCode code).map? = some form) :
    AcceptsAfter code Read.mapHeader fun bytes count left =>
      form.Gives code bytes count ∧ count * 2 ≤ left :=
  countAs map .map fun count => count * 2

theorem extensionHeaderOf (form : ExtensionForm) :
    AcceptsAfter code (Read.extensionHeaderOf form) fun bytes header _ =>
      form.Gives bytes header := by
  cases form with
  | fixed size =>
      refine ((fixed 1).mapped fun header =>
        (⟨typeCodeOf (header.drop 1), size⟩ : ExtensionHeader)).congr fun bytes header left => ?_
      constructor
      · rintro ⟨_, typeByte, rfl, typeCode, rfl, length⟩
        cases header
        cases typeCode
        cases length
        exact ⟨_, ⟨rfl, rfl⟩, rfl⟩
      · rintro ⟨_, ⟨length, rfl⟩, rfl⟩
        rcases List.length_eq_one_iff.1 length with ⟨typeByte, rfl⟩
        exact ⟨[], typeByte, rfl, rfl, rfl, rfl⟩
  | sized width =>
      have read : AcceptsAfter code (Read.fixed (2 + width.bytes)) fun bytes result _ =>
          bytes.length = width.bytes + 1 ∧ result = code :: bytes := by
        have count : 2 + width.bytes = 1 + (width.bytes + 1) := by omega
        rw [count]
        exact fixed (width.bytes + 1)
      refine (read.mapped fun header =>
        (⟨typeCodeOf (header.drop (1 + width.bytes)),
          BigEndian.decode ((header.drop 1).take width.bytes)⟩ : ExtensionHeader)).congr
            fun bytes header left => ?_
      constructor
      · rintro ⟨length, typeByte, rfl, typeCode, whole, counted⟩
        refine ⟨_, ⟨by rw [List.length_append, whole]; rfl, rfl⟩, ?_⟩
        rw [Nat.add_comm 1, List.drop_succ_cons, List.drop_one, List.tail_cons, ← whole,
          List.drop_left, List.take_left, ← typeCode, ← counted]
      · rintro ⟨_, ⟨length, rfl⟩, rfl⟩
        obtain ⟨start, typeByte, rfl⟩ : ∃ start typeByte, bytes = start ++ [typeByte] := by
          refine ⟨bytes.dropLast, bytes.getLast ?_, (List.dropLast_concat_getLast _).symm⟩
          rintro rfl
          cases length
        have whole : start.length = width.bytes := by simpa using length
        refine ⟨start, typeByte, rfl, ?_, whole, ?_⟩
        · simp only [Nat.add_comm 1, List.drop_succ_cons, ← whole, List.drop_left]
        · simp only [List.drop_one, List.tail_cons, ← whole, List.take_left]

theorem extensionHeader {form : ExtensionForm}
    (extension : (Format.ofCode code).extension? = some form) :
    AcceptsAfter code Read.extensionHeader fun bytes header _ => form.Gives bytes header := by
  apply peekThen
  simp only [extension]
  exact extensionHeaderOf form

end Read.AcceptsAfter

end MsgPack
