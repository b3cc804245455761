import MsgPack.Proofs.Datum.Payload
import MsgPack.Proofs.Value.RoundTrip

/-!
# Scalar data as values

A value of a scalar type is written as a value of the wire, its image, and is read from the
bytes of its image.  What is lost on the way is the flow label and the scope of a socket address.
Covered are the scalar types whose values the wire keeps as they are:
times on the clock of the system and on those of the calendar are converted, and are left
out here.
-/

namespace MsgPack

/-! ## Numbers as values -/

namespace Value

variable {number : Int}

theorem encoding_ofInt (low : -0x8000000000000000 ≤ number) (high : number < 0x10000000000000000) :
    (ofInt number).encoding = compactInteger number := by
  unfold ofInt
  by_cases negative : number < 0
  · rw [if_pos negative, encoding, Int64.toInt_ofInt_of_le low (by omega)]
  · rw [if_neg negative, encoding, UInt64.toNat_ofNat']
    congr 1
    omega

theorem fits_ofInt (number : Int) : (ofInt number).Fits := by
  unfold ofInt
  split <;> exact trivial

theorem nesting_ofInt (number : Int) : (ofInt number).nesting = 0 := by
  unfold ofInt
  split <;> rfl

/-- A number does not count for the nesting of what stands beside it. -/
theorem nesting_pair (number : Int) (content : Value) :
    (array [ofInt number, content]).nesting = content.nesting + 1 := by
  simp only [nesting, nestingItems, nesting_ofInt, Nat.zero_max, Nat.max_zero]

theorem write_ofInt (low : -0x8000000000000000 ≤ number) (high : number < 0x10000000000000000) :
    (ofInt number).write = Write.int number := by
  rw [write_of_fits (fits_ofInt number), encoding_ofInt low high]
  rfl

end Value

/-- The value of a scalar type that a value is read as. -/
def Atom.restored : Atom → Atom
  | .socket octets port _ _ => .socket octets port 0 0
  | content => content

namespace Scalar

/-! ## Images -/

/-- The value that a value of a scalar type is written as. -/
def image : Scalar → Atom → Value
  | _, .unit => .nil
  | _, .bool truth => .bool truth
  | _, .int number => .ofInt number
  | _, .float32 bits => .float32 bits
  | _, .float64 bits => .float64 bits
  | _, .char character => .ofInt character.toNat
  | _, .text content => .string content
  | .guid, .bytes content =>
      .extension ExtensionCode.guid (GuidFields.ofBytes content).payload
  | _, .bytes content => .binary content
  | _, .value content => content
  | _, .timestamp stamp => .extension ExtensionCode.timestamp stamp.payload
  | _, .duration span => .array [.ofInt span.seconds.toNat, .ofInt span.nanoseconds]
  | _, .address octets => .binary octets
  | _, .socket octets port _ _ => .array [.binary octets, .ofInt port]
  | _, .decimal number => .extension ExtensionCode.decimal number.payload
  | _, _ => .nil

/-- The scalar types whose values the wire keeps as they are. -/
def Covered : Scalar → Prop
  | .systemTime | .utcDateTime | .plainDateTime | .offsetDateTime | .date | .time => False
  | _ => True

/-- A range of integers lies within what the wire can hold. -/
theorem bounds_of_contains {range : IntRange} {number : Int} (contained : range.Contains number) :
    -0x8000000000000000 ≤ number ∧ number < 0x10000000000000000 := by
  rcases contained with ⟨low, high⟩
  constructor
  · exact Int.le_trans (by cases range <;> decide) low
  · exact Int.lt_of_le_of_lt high (by cases range <;> decide)

theorem char_lt (character : Char) : character.toNat < 0x110000 := by
  rcases character.valid with low | ⟨_, high⟩
  · exact Nat.lt_trans low (by decide)
  · exact high

/-! ## Writing -/

/-- Two numbers in an array of their own. -/
theorem pair_eq (first second : Value) (one : Write Unit) (other : Write Unit)
    (left : first.write = one) (right : second.write = other) :
    (Value.array [first, second]).write =
      (do Write.fixedHeader .fixArray 2; one; other) := by
  have header : Write.arrayHeader 2 = Write.fixedHeader .fixArray 2 := rfl
  simp only [Value.write, Value.writeItems, List.length_cons, List.length_nil, header, left, right,
    bind_pure_unit]

/-- A value of a covered type is written as its image. -/
theorem write_eq {type : Scalar} {content : Atom} (covered : type.Covered)
    (holds : type.Holds content) : type.write content = (type.image content).write := by
  cases type <;> cases content <;> first | exact holds.elim | exact covered.elim | skip
  case unit.unit => rfl
  case bool.bool truth => rfl
  case int.int range number =>
      obtain ⟨low, high⟩ := bounds_of_contains holds
      exact (Value.write_ofInt low high).symm
  case float32.float32 bits => rfl
  case float64.float64 bits => rfl
  case char.char character =>
      have bound := char_lt character
      exact (Value.write_ofInt (by omega) (by omega)).symm
  case string.text content => rfl
  case smallString.text content => rfl
  case bytes.bytes content => rfl
  case byteBuffer.bytes content => rfl
  case value.value content => rfl
  case timestamp.timestamp stamp => rfl
  case duration.duration span =>
      have seconds := span.seconds.toNat_lt
      have nanoseconds : span.nanoseconds < 1000000000 := span.nanoseconds_lt
      exact (pair_eq _ _ _ _ (Value.write_ofInt (by omega) (by omega))
        (Value.write_ofInt (by omega) (by omega))).symm
  case ipv4.address octets => rfl
  case ipv6.address octets => rfl
  case ip.address octets => rfl
  case socket.socket octets port flow scope =>
      have bound : port < 0x10000 := holds.2
      have second : (Value.ofInt port).write = Write.int port :=
        Value.write_ofInt (by omega) (by omega)
      exact (pair_eq (.binary octets) (.ofInt port) (Write.bin octets) _ rfl second).symm
  case guid.bytes content => rfl
  case decimal.decimal number => rfl

/-! ## Reading -/

open Read (Takes)

/-- The header of an array of known length, before enough bytes for its items. -/
theorem takesBefore_arrayOf {count : Nat} {others : Bytes} (typeName : String)
    (fits : count < 0x100000000) (enough : count ≤ others.length) :
    Read.TakesBefore others (Read.arrayOf count typeName) (arrayHeader count) () := by
  apply (Read.takesBefore_arrayHeader fits enough).andThen
  rw [if_pos rfl]
  exact .pure ()

theorem takes_arrayOfThen {α : Type} {levels count : Nat} {typeName : String} {others : Bytes}
    {next : Read α} {result : α} (fits : count < 0x100000000) (enough : count ≤ others.length)
    (tail : Takes levels next others result) :
    Takes levels (do Read.arrayOf count typeName; next) (arrayHeader count ++ others) result :=
  (takesBefore_arrayOf typeName fits enough).bind tail

/-- The header of an array of two needs no level of its own. -/
theorem takes_pair {α : Type} {levels : Nat} {first second : Value} {typeName : String}
    {next : Read α} {result : α} (fits : first.Fits ∧ second.Fits)
    (tail : Takes levels next (first.encoding ++ second.encoding) result) :
    Takes levels (do Read.arrayOf 2 typeName; next) (Value.array [first, second]).encoding
      result := by
  have left := Value.length_encoding_pos fits.1
  have right := Value.length_encoding_pos fits.2
  rw [Value.encoding, Value.encodingItems, Value.encodingItems, Value.encodingItems,
    List.append_nil]
  have enough : 2 ≤ (first.encoding ++ second.encoding).length := by
    rw [List.length_append]
    omega
  exact takes_arrayOfThen (by decide) enough tail

/-- A number of a range is read from the bytes of its image. -/
theorem takes_ofInt {range : IntRange} {number : Int} (contained : range.Contains number) :
    Takes 0 (Read.int range) (Value.ofInt number).encoding number := by
  obtain ⟨low, high⟩ := bounds_of_contains contained
  rw [Value.encoding_ofInt low high]
  exact Read.takes_int contained

theorem takes_size {range : IntRange} {number : Int} (contained : range.Contains number) :
    Takes 0 (Read.size range) (Value.ofInt number).encoding number := by
  obtain ⟨low, high⟩ := bounds_of_contains contained
  have held := IntegerForm.shortest_holds low high
  have same := IntegerForm.toInt_word held
  rw [Value.encoding_ofInt low high]
  apply (Read.takes_integerAs .integer held).andThen
  rw [Read.fit, Integer.fit?, if_pos (same.symm ▸ contained), same]
  exact .pure number

theorem takes_char (character : Char) :
    Takes 0 Read.char (Value.ofInt character.toNat).encoding character := by
  have bound := char_lt character
  have contained : IntRange.u32.Contains character.toNat := by
    constructor
    · exact Int.natCast_nonneg _
    · exact Int.le_trans (Int.ofNat_le.2 (Nat.le_of_lt bound)) (by decide)
  apply (takes_ofInt contained).andThen
  have valid : character.toNat.isValidChar := character.valid
  rw [Int.toNat_natCast, if_pos valid, Char.ofNat_toNat]
  exact .pure character

theorem takes_timestamp (stamp : Timestamp) :
    Takes 0 Read.timestamp (Value.extension ExtensionCode.timestamp stamp.payload).encoding
      stamp := by
  have length : stamp.payload.length = 4 ∨ stamp.payload.length = 8 ∨
      stamp.payload.length = 12 := by
    rw [Timestamp.length_payload, Timestamp.payloadLength]
    split
    · split
      · exact .inl rfl
      · exact .inr (.inl rfl)
    · exact .inr (.inr rfl)
  apply (Read.takes_extensionHeaderWith _ (by omega)).bind
  rw [if_pos length]
  apply (Read.takes_fixed _).andThen
  rw [Timestamp.ofPayload_payload]
  exact .pure stamp

theorem takes_duration (span : Duration) :
    Takes 0 Read.duration
      (Value.array [.ofInt span.seconds.toNat, .ofInt span.nanoseconds]).encoding span := by
  have bound := span.seconds.toNat_lt
  have fraction : span.nanoseconds < 1000000000 := span.nanoseconds_lt
  have seconds : IntRange.u64.Contains span.seconds.toNat := by
    constructor
    · exact Int.natCast_nonneg _
    · exact Int.le_of_lt_add_one (Int.ofNat_lt.2 bound)
  have nanoseconds : IntRange.u32.Contains span.nanoseconds := by
    constructor
    · exact Int.natCast_nonneg _
    · exact Int.le_trans (Int.ofNat_le.2 (Nat.le_of_lt fraction)) (by decide)
  apply takes_pair ⟨Value.fits_ofInt _, Value.fits_ofInt _⟩
  apply (takes_ofInt seconds).bind
  apply (takes_ofInt nanoseconds).andThen
  simp only [Int.toNat_natCast, dif_pos span.nanoseconds_lt, UInt64.ofNat_toNat]
  exact .pure span

theorem takes_address {octets : Bytes} (family : octets.length = 4 ∨ octets.length = 16) :
    Takes 0 Read.address (Value.binary octets).encoding octets := by
  apply Read.takes_binThen (by omega) (fun _ => rfl)
  rw [if_pos family]
  exact .pure octets

theorem takes_socket {octets : Bytes} {port : Nat}
    (family : octets.length = 4 ∨ octets.length = 16) (bound : port < 0x10000) :
    Takes 0 Read.socket (Value.array [.binary octets, .ofInt port]).encoding
      (.socket octets port 0 0) := by
  have contained : IntRange.u16.Contains port := by
    constructor
    · exact Int.natCast_nonneg _
    · exact Int.le_of_lt_add_one (Int.ofNat_lt.2 bound)
  have short : (Value.binary octets).Fits := by
    rw [Value.Fits, Value.FitsLength]
    omega
  apply takes_pair ⟨short, Value.fits_ofInt _⟩
  apply (takes_address family).bind
  apply (takes_ofInt contained).andThen
  rw [Int.toNat_natCast]
  exact .pure _

theorem takes_guid {content : Bytes} (whole : content.length = 16) :
    Takes 0 Read.guid
      (Value.extension ExtensionCode.guid (GuidFields.ofBytes content).payload).encoding
        content := by
  have length := GuidFields.length_payload whole
  have read := Read.takes_fixedExtension ExtensionCode.guid
    (show (GuidFields.ofBytes content).payload.length < 0x100000000 by omega)
  rw [length] at read
  have back := read.mapped fun payload => (GuidFields.ofPayload payload).toBytes
  rw [GuidFields.toBytes_ofPayload_payload whole] at back
  rw [Value.encoding, length]
  exact back

theorem takes_decimal {number : Decimal} (valid : number.Valid) :
    Takes 0 Read.decimal (Value.extension ExtensionCode.decimal number.payload).encoding
      number := by
  have length := number.length_payload
  have read := Read.takes_fixedExtension ExtensionCode.decimal
    (show number.payload.length < 0x100000000 by omega)
  rw [length] at read
  rw [Value.encoding, length]
  apply read.andThen
  rw [Decimal.ofPayload_payload valid]
  exact .pure number

/-- A value of a covered type is read from the bytes of its image, if values of any shape in
it are normal. -/
theorem takes_image {type : Scalar} {content : Atom} (covered : type.Covered)
    (holds : type.Holds content) (fits : (type.image content).Fits)
    (normal : ∀ value, content = .value value → value.normal = value) :
    Takes (type.image content).nesting type.read (type.image content).encoding
      content.restored := by
  cases type <;> cases content <;> first | exact holds.elim | exact covered.elim | skip
  case unit.unit => exact Read.takes_nil.mapped fun _ => Atom.unit
  case bool.bool truth => exact (Read.takes_bool truth).mapped Atom.bool
  case int.int range number =>
      rw [image, Value.nesting_ofInt]
      cases range with
      | usize => exact (takes_size holds).mapped Atom.int
      | isize => exact (takes_size holds).mapped Atom.int
      | _ => exact (takes_ofInt holds).mapped Atom.int
  case float32.float32 bits => exact (Read.takes_float32 bits).mapped Atom.float32
  case float64.float64 bits => exact (Read.takes_float64 bits).mapped Atom.float64
  case char.char character =>
      rw [image, Value.nesting_ofInt]
      exact (takes_char character).mapped Atom.char
  case string.text content => exact (Read.takes_string fits).mapped Atom.text
  case smallString.text content => exact (Read.takes_string fits).mapped Atom.text
  case bytes.bytes content => exact Read.takes_binThen fits (fun _ => rfl) (.pure _)
  case byteBuffer.bytes content => exact Read.takes_binThen fits (fun _ => rfl) (.pure _)
  case value.value content =>
      have fits : content.Fits := fits
      have read := (Value.takes_read fits).mapped Atom.value
      rw [normal content rfl] at read
      exact read
  case timestamp.timestamp stamp => exact (takes_timestamp stamp).mapped Atom.timestamp
  case duration.duration span =>
      exact ((takes_duration span).mapped Atom.duration).mono (Nat.zero_le _)
  case ipv4.address octets =>
      have read := (Read.takes_fixedBin "Ipv4Addr" fits).mapped Atom.address
      rw [show octets.length = 4 from holds] at read
      rw [image, Value.encoding, show octets.length = 4 from holds]
      exact read
  case ipv6.address octets =>
      have read := (Read.takes_fixedBin "Ipv6Addr" fits).mapped Atom.address
      rw [show octets.length = 16 from holds] at read
      rw [image, Value.encoding, show octets.length = 16 from holds]
      exact read
  case ip.address octets => exact (takes_address holds).mapped Atom.address
  case socket.socket octets port flow scope =>
      have family : octets.length = 4 ∨ octets.length = 16 := holds.1.imp And.left And.left
      exact (takes_socket family holds.2).mono (Nat.zero_le _)
  case guid.bytes content => exact (takes_guid holds).mapped Atom.bytes
  case decimal.decimal number => exact (takes_decimal holds).mapped Atom.decimal

end Scalar

end MsgPack
