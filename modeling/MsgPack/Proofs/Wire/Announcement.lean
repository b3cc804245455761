import MsgPack.Wire.Compact
import MsgPack.Wire.WellFormed

/-!
# What a format announces

The formats of the wire and the well-formed bytes are described apart from each other.  This
file brings them together: every format announces how its value goes on after the code, and
`FixedSize`, `LengthGiven` and `Opens` say the same of each code.  The forms by which values
are read then give the announcement of every format that has them.
-/

namespace MsgPack

/-- How a value goes on after its code. -/
inductive Announcement where
  /-- With a number of bytes. -/
  | fixed (size : Nat)
  /-- With a length of some width, as many bytes as it says, and some more. -/
  | sized (width extra : Nat)
  /-- With a count, and so many values for each of that count. -/
  | values (each : Nat) (form : LengthForm)
  /-- Not at all: no value starts with such a code. -/
  | nothing
  deriving DecidableEq

/-! ## Codes -/

/-- What can be checked of each of the 256 codes holds of all codes. -/
theorem Format.forall_code {holds : UInt8 → Prop}
    (checked : ∀ code : Fin 256, holds (UInt8.ofFin code)) (code : UInt8) : holds code :=
  checked code.toFin

namespace Format

/-- Whether a format owns just one code. -/
def OwnsOneCode (format : Format) : Prop :=
  format ≠ positiveFixInt ∧ format ≠ fixMap ∧ format ≠ fixArray ∧ format ≠ fixStr ∧
    format ≠ negativeFixInt

instance (format : Format) : Decidable format.OwnsOneCode :=
  inferInstanceAs (Decidable (_ ∧ _))

/-- What the codes say by themselves, checked of each: the code of a format that owns just one
is that format's, the other formats own ranges, and the low bits of a code that holds a
length or a count are its distance from the first code of its range. -/
theorem code_checked : ∀ code : UInt8,
    ((ofCode code).OwnsOneCode → (ofCode code).code = code) ∧
    (ofCode code = positiveFixInt ↔ code < 0x80) ∧
    (ofCode code = negativeFixInt ↔ 0xe0 ≤ code) ∧
    ((ofCode code = fixMap ↔ 0x80 ≤ code ∧ code < 0x90) ∧
      (ofCode code = fixMap → code &&& 0x0f = code - 0x80)) ∧
    ((ofCode code = fixArray ↔ 0x90 ≤ code ∧ code < 0xa0) ∧
      (ofCode code = fixArray → code &&& 0x0f = code - 0x90)) ∧
    (ofCode code = fixStr ↔ 0xa0 ≤ code ∧ code < 0xc0) ∧
      (ofCode code = fixStr → code &&& 0x1f = code - 0xa0) :=
  forall_code (by decide +kernel)

theorem code_ofCode (code : UInt8) : (ofCode code).OwnsOneCode → (ofCode code).code = code :=
  (code_checked code).1

theorem ofCode_eq_positiveFixInt (code : UInt8) : ofCode code = positiveFixInt ↔ code < 0x80 :=
  (code_checked code).2.1

theorem ofCode_eq_negativeFixInt (code : UInt8) : ofCode code = negativeFixInt ↔ 0xe0 ≤ code :=
  (code_checked code).2.2.1

theorem ofCode_eq_fixMap (code : UInt8) : ofCode code = fixMap ↔ 0x80 ≤ code ∧ code < 0x90 :=
  (code_checked code).2.2.2.1.1

theorem ofCode_eq_fixArray (code : UInt8) : ofCode code = fixArray ↔ 0x90 ≤ code ∧ code < 0xa0 :=
  (code_checked code).2.2.2.2.1.1

theorem ofCode_eq_fixStr (code : UInt8) : ofCode code = fixStr ↔ 0xa0 ≤ code ∧ code < 0xc0 :=
  (code_checked code).2.2.2.2.2.1

theorem fixMap_low {code : UInt8} (range : 0x80 ≤ code ∧ code < 0x90) :
    code &&& 0x0f = code - 0x80 :=
  (code_checked code).2.2.2.1.2 ((ofCode_eq_fixMap code).2 range)

theorem fixArray_low {code : UInt8} (range : 0x90 ≤ code ∧ code < 0xa0) :
    code &&& 0x0f = code - 0x90 :=
  (code_checked code).2.2.2.2.1.2 ((ofCode_eq_fixArray code).2 range)

theorem fixStr_low {code : UInt8} (range : 0xa0 ≤ code ∧ code < 0xc0) :
    code &&& 0x1f = code - 0xa0 :=
  (code_checked code).2.2.2.2.2.2 ((ofCode_eq_fixStr code).2 range)

/-! ## Announcements -/

/-- What a format announces by one of its codes. -/
def announcement (format : Format) (code : UInt8) : Announcement :=
  match format with
  | positiveFixInt | negativeFixInt | nil | false | true => .fixed 0
  | uint8 | int8 => .fixed 1
  | uint16 | int16 => .fixed 2
  | uint32 | int32 | float32 => .fixed 4
  | uint64 | int64 | float64 => .fixed 8
  | fixExt1 => .fixed 2
  | fixExt2 => .fixed 3
  | fixExt4 => .fixed 5
  | fixExt8 => .fixed 9
  | fixExt16 => .fixed 17
  | fixStr => .fixed (code &&& 0x1f).toNat
  | str8 | bin8 => .sized 1 0
  | str16 | bin16 => .sized 2 0
  | str32 | bin32 => .sized 4 0
  | ext8 => .sized 1 1
  | ext16 => .sized 2 1
  | ext32 => .sized 4 1
  | fixArray => .values 1 (.fixed 0x0f)
  | array16 => .values 1 (.sized .two)
  | array32 => .values 1 (.sized .four)
  | fixMap => .values 2 (.fixed 0x0f)
  | map16 => .values 2 (.sized .two)
  | map32 => .values 2 (.sized .four)
  | neverUsed => .nothing

end Format

/-! ## Forms -/

/-- How many bytes follow the code of an integer. -/
def IntegerForm.payloadLength : IntegerForm → Nat
  | .positiveFix | .negativeFix => 0
  | .unsigned width | .signed width => width.bytes

/-- The bytes after a code that give a length, and the length they give. -/
def LengthForm.Gives (form : LengthForm) (code : UInt8) (bytes : Bytes) (length : Nat) : Prop :=
  match form with
  | .fixed mask => bytes = [] ∧ length = (code &&& mask).toNat
  | .sized width => bytes.length = width.bytes ∧ length = BigEndian.decode bytes

/-- What a code announces that gives the length of a payload. -/
def LengthForm.announcement (form : LengthForm) (code : UInt8) : Announcement :=
  match form with
  | .fixed mask => .fixed (code &&& mask).toNat
  | .sized width => .sized width.bytes 0

/-- What a code announces that gives the length of an extension; its type code counts too. -/
def ExtensionForm.announcement : ExtensionForm → Announcement
  | .fixed length => .fixed (length + 1)
  | .sized width => .sized width.bytes 1

namespace Format

variable {format : Format}

theorem announcement_of_integer {form : IntegerForm} (integer : format.integer? = some form)
    (code : UInt8) : format.announcement code = .fixed form.payloadLength := by
  cases format <;> cases integer <;> rfl

theorem announcement_of_boolean {truth : Bool} (boolean : format.boolean? = some truth)
    (code : UInt8) : format.announcement code = .fixed 0 := by
  cases format <;> cases boolean <;> rfl

theorem announcement_of_string {form : LengthForm} (string : format.string? = some form)
    (code : UInt8) : format.announcement code = form.announcement code := by
  cases format <;> cases string <;> rfl

theorem announcement_of_binary {form : LengthForm} (binary : format.binary? = some form)
    (code : UInt8) : format.announcement code = form.announcement code := by
  cases format <;> cases binary <;> rfl

theorem announcement_of_array {form : LengthForm} (array : format.array? = some form)
    (code : UInt8) : format.announcement code = .values 1 form := by
  cases format <;> cases array <;> rfl

theorem announcement_of_map {form : LengthForm} (map : format.map? = some form)
    (code : UInt8) : format.announcement code = .values 2 form := by
  cases format <;> cases map <;> rfl

theorem announcement_of_extension {form : ExtensionForm}
    (extension : format.extension? = some form) (code : UInt8) :
    format.announcement code = form.announcement := by
  cases format <;> cases extension <;> rfl

theorem announcement_of_unknown (unknown : format.kind = .unknown) (code : UInt8) :
    format.announcement code = .nothing := by
  cases format <;> cases unknown
  rfl

/-- A format of floating point numbers is one of two. -/
theorem float32_or_float64 (float : format.kind = .float) :
    format = float32 ∨ format = float64 := by
  cases format <;> cases float <;> simp

end Format

/-! ## Announcements and well-formed bytes -/

open Format

theorem fixedSize_iff {code : UInt8} {size : Nat} :
    FixedSize code size ↔ (ofCode code).announcement code = .fixed size := by
  constructor
  · intro announced
    cases announced with
    | positiveFixInt low =>
        rw [(ofCode_eq_positiveFixInt code).2 low]
        rfl
    | negativeFixInt high =>
        rw [(ofCode_eq_negativeFixInt code).2 high]
        rfl
    | fixStr low high =>
        rw [(ofCode_eq_fixStr code).2 ⟨low, high⟩, ← fixStr_low ⟨low, high⟩]
        rfl
    | _ => rfl
  · intro announced
    have owned := code_ofCode code
    cases format : ofCode code with
    | positiveFixInt =>
        rw [format] at announced
        cases announced
        exact .positiveFixInt ((ofCode_eq_positiveFixInt code).1 format)
    | negativeFixInt =>
        rw [format] at announced
        cases announced
        exact .negativeFixInt ((ofCode_eq_negativeFixInt code).1 format)
    | fixStr =>
        have range := (ofCode_eq_fixStr code).1 format
        rw [format] at announced
        cases announced
        rw [fixStr_low range]
        exact .fixStr range.1 range.2
    | nil =>
        rw [format] at announced owned
        cases announced
        exact owned (by decide) ▸ .nil
    | false =>
        rw [format] at announced owned
        cases announced
        exact owned (by decide) ▸ .false
    | true =>
        rw [format] at announced owned
        cases announced
        exact owned (by decide) ▸ .true
    | _ =>
        rw [format] at announced owned
        cases announced <;> exact owned (by decide) ▸ (by constructor)

theorem lengthGiven_iff {code : UInt8} {width extra : Nat} :
    LengthGiven code width extra ↔ (ofCode code).announcement code = .sized width extra := by
  constructor
  · intro announced
    cases announced <;> rfl
  · intro announced
    have owned := code_ofCode code
    cases format : ofCode code with
    | _ =>
        rw [format] at announced owned
        cases announced <;> exact owned (by decide) ▸ (by constructor)

theorem opens_iff {code : UInt8} {bytes : Bytes} {count : Nat} :
    Opens (code :: bytes) count ↔ ∃ each form length,
      (ofCode code).announcement code = .values each form ∧ form.Gives code bytes length ∧
        count = length * each := by
  constructor
  · intro announced
    cases announced with
    | fixMap low high =>
        rw [(ofCode_eq_fixMap code).2 ⟨low, high⟩, ← fixMap_low ⟨low, high⟩]
        exact ⟨_, _, _, rfl, ⟨rfl, rfl⟩, rfl⟩
    | fixArray low high =>
        rw [(ofCode_eq_fixArray code).2 ⟨low, high⟩, ← fixArray_low ⟨low, high⟩]
        exact ⟨_, _, _, rfl, ⟨rfl, rfl⟩, (Nat.mul_one _).symm⟩
    | array16 whole => exact ⟨_, _, _, rfl, ⟨whole, rfl⟩, (Nat.mul_one _).symm⟩
    | array32 whole => exact ⟨_, _, _, rfl, ⟨whole, rfl⟩, (Nat.mul_one _).symm⟩
    | map16 whole => exact ⟨_, _, _, rfl, ⟨whole, rfl⟩, rfl⟩
    | map32 whole => exact ⟨_, _, _, rfl, ⟨whole, rfl⟩, rfl⟩
  · rintro ⟨each, form, length, announced, given, rfl⟩
    have owned := code_ofCode code
    cases format : ofCode code with
    | fixMap =>
        have range := (ofCode_eq_fixMap code).1 format
        rw [format] at announced
        cases announced
        rcases given with ⟨rfl, rfl⟩
        rw [fixMap_low range]
        exact .fixMap range.1 range.2
    | fixArray =>
        have range := (ofCode_eq_fixArray code).1 format
        rw [format] at announced
        cases announced
        rcases given with ⟨rfl, rfl⟩
        rw [fixArray_low range, Nat.mul_one]
        exact .fixArray range.1 range.2
    | array16 =>
        rw [format] at announced owned
        cases announced
        rcases given with ⟨whole, rfl⟩
        rw [← owned (by decide), Nat.mul_one]
        exact .array16 whole
    | array32 =>
        rw [format] at announced owned
        cases announced
        rcases given with ⟨whole, rfl⟩
        rw [← owned (by decide), Nat.mul_one]
        exact .array32 whole
    | map16 =>
        rw [format] at announced owned
        cases announced
        rcases given with ⟨whole, rfl⟩
        rw [← owned (by decide)]
        exact .map16 whole
    | map32 =>
        rw [format] at announced owned
        cases announced
        rcases given with ⟨whole, rfl⟩
        rw [← owned (by decide)]
        exact .map32 whole
    | _ =>
        rw [format] at announced
        cases announced

end MsgPack
