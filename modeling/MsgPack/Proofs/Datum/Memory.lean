import MsgPack.Formatter.Codec
import MsgPack.Proofs.Time.Calendar

/-!
# Records copied as they lie in memory

Identifiers and decimal numbers have two codecs each: one writes and reads their fields one by
one, the other copies the record that holds them.  A word lies in memory as its big-endian
bytes in reverse, so the two codecs of a type do the same to every writer and every reader.
The payloads that are read as decimal numbers are told by the bits of their flags.
-/

namespace MsgPack

/-! ## Words in memory -/

namespace BigEndian

/-- The last byte of a number is its lowest digit. -/
theorem encode_succ (count number : Nat) :
    encode (count + 1) number = encode count (number / 256) ++ [UInt8.ofNat (number % 256)] := by
  induction count with
  | zero =>
      have low : UInt8.ofNat number = UInt8.ofNat (number % 256) := by
        apply UInt8.toNat_inj.1
        simp only [UInt8.toNat_ofNat', Nat.reducePow, Nat.mod_mod]
      rw [encode, encode, encode, capacity, Nat.div_one, low]
      rfl
  | succ count ih =>
      rw [encode, ih, encode, capacity, Nat.div_div_eq_div_mul]
      rfl

theorem decode_append_singleton (bytes : Bytes) (byte : UInt8) :
    decode (bytes ++ [byte]) = decode bytes * 256 + byte.toNat := by
  simp only [decode, decodeFrom, List.foldl_append, List.foldl_cons, List.foldl_nil]

end BigEndian

namespace Memory

open BigEndian (capacity)

/-- A word lies in memory as its big-endian bytes in reverse. -/
theorem image_eq (count number : Nat) :
    image count number = (BigEndian.encode count number).reverse := by
  induction count generalizing number with
  | zero => rfl
  | succ count ih =>
      rw [image, ih, BigEndian.encode_succ, List.reverse_append]
      rfl

theorem word_eq (bytes : Bytes) : word bytes = BigEndian.decode bytes.reverse := by
  induction bytes with
  | nil => rfl
  | cons byte bytes ih =>
      rw [word, ih, List.reverse_cons, BigEndian.decode_append_singleton]
      omega

/-- Bytes are the word that they lie in memory as. -/
theorem image_word (bytes : Bytes) : image bytes.length (word bytes) = bytes := by
  rw [image_eq, word_eq, ← List.length_reverse, BigEndian.encode_decode, List.reverse_reverse]

theorem word_lt (bytes : Bytes) : word bytes < capacity bytes.length := by
  rw [word_eq, ← List.length_reverse]
  exact BigEndian.decode_lt _

theorem word_append (low high : Bytes) :
    word (low ++ high) = word low + capacity low.length * word high := by
  induction low with
  | nil => simp only [List.nil_append, word, List.length_nil, capacity, Nat.zero_add, Nat.one_mul]
  | cons byte low ih =>
      rw [List.cons_append, word, ih, word, List.length_cons, capacity, Nat.mul_add, Nat.add_assoc,
        Nat.mul_assoc]

/-- A word of all bytes is zero just if they are. -/
theorem word_eq_zero_iff {bytes : Bytes} :
    word bytes = 0 ↔ bytes = List.replicate bytes.length 0 := by
  have zero (count : Nat) : image count 0 = List.replicate count 0 := by
    induction count with
    | zero => rfl
    | succ count ih =>
        rw [image, Nat.zero_div, ih]
        rfl
  constructor
  · intro none
    rw [← zero, ← none, image_word]
  · intro none
    rw [none, ← zero, word_eq, image_eq, List.reverse_reverse, BigEndian.decode_encode,
      Nat.zero_mod]

end Memory

/-! ## Identifiers -/

namespace GuidFields

/-- The record lies in memory as its fields are written. -/
theorem image_eq (fields : GuidFields) : fields.image = fields.payload := by
  simp only [image, payload, Memory.image_eq]

theorem ofImage_eq (bytes : Bytes) : ofImage bytes = ofPayload bytes := by
  simp only [ofImage, ofPayload, Memory.word_eq]

end GuidFields

/-- Copying the record of an identifier is writing and reading its fields. -/
theorem Codec.guidImage_eq : guidImage = usual .guid := by
  have write : guidImage.write = (usual .guid).write := by
    funext datum
    cases datum with
    | atom content =>
        cases content with
        | bytes content => exact congrArg (Write.extension _) (GuidFields.image_eq _)
        | _ => rfl
    | _ => rfl
  have read : guidImage.read = (usual .guid).read := by
    simp only [guidImage, usual, ofScalar, Scalar.read, Read.guid, GuidFields.ofImage_eq,
      bind_assoc, pure_bind]
  change Codec.mk guidImage.write guidImage.read = usual .guid
  rw [write, read]

/-! ## Decimal numbers -/

namespace Decimal

/-- The words lie in memory as they are written. -/
theorem image_eq (decimal : Decimal) : decimal.image = decimal.payload := by
  simp only [image, payload, wordBytes, Memory.image_eq, List.flatMap_cons, List.flatMap_nil,
    List.append_nil, List.append_assoc]

theorem ofImage_eq (bytes : Bytes) : ofImage bytes = ofPayload bytes := by
  simp only [ofImage, ofPayload, Memory.word_eq]

end Decimal

/-- Copying the words of a decimal number is writing and reading them one by one. -/
theorem Codec.decimalImage_eq : decimalImage = usual .decimal := by
  have write : decimalImage.write = (usual .decimal).write := by
    funext datum
    cases datum with
    | atom content =>
        cases content with
        | decimal number => exact congrArg (Write.extension _) (Decimal.image_eq _)
        | _ => rfl
    | _ => rfl
  have read : decimalImage.read = (usual .decimal).read := by
    simp only [decimalImage, usual, ofScalar, Scalar.read, Read.decimal, Decimal.ofImage_eq,
      bind_assoc, pure_bind]
  change Codec.mk decimalImage.write decimalImage.read = usual .decimal
  rw [write, read]

/-! ## Payloads of decimal numbers -/

namespace Decimal

variable {number : Decimal} {words : DecimalWords} {payload : Bytes}

/-- The flags in a payload. -/
def payloadFlags (payload : Bytes) : Nat :=
  Memory.word (payload.take 4)

/-- A payload that stands for a decimal number: the flags are a scale in the bits from 16 to 23,
which is not too large, and a sign in bit 31, and nothing else. -/
structure IsPayload (payload : Bytes) : Prop where
  whole : payload.length = 16
  scale : payloadFlags payload / 0x10000 % 0x100 ≤ 28
  unused : ∀ bit, bit < 16 ∨ 24 ≤ bit ∧ bit < 31 → (payloadFlags payload).testBit bit = false

/-- What must be zero in the flags, as bits. -/
theorem unused_eq_zero_iff (flags : Nat) :
    flags % 0x10000 + flags / 0x1000000 % 0x80 = 0 ↔
      ∀ bit, bit < 16 ∨ 24 ≤ bit ∧ bit < 31 → flags.testBit bit = false := by
  have low (bit : Nat) : (flags % 0x10000).testBit bit = (decide (bit < 16) && flags.testBit bit) :=
    Nat.testBit_mod_two_pow flags 16 bit
  have high (bit : Nat) : (flags / 0x1000000 % 0x80).testBit bit =
      (decide (bit < 7) && flags.testBit (24 + bit)) := by
    rw [show 0x80 = 2 ^ 7 from rfl, show 0x1000000 = 2 ^ 24 from rfl, Nat.testBit_mod_two_pow,
      Nat.testBit_div_two_pow, Nat.add_comm]
  constructor
  · rintro none bit (lower | ⟨least, most⟩)
    · have clear := low bit
      rw [show flags % 0x10000 = 0 by omega, Nat.zero_testBit, decide_eq_true lower] at clear
      exact clear.symm
    · have clear := high (bit - 24)
      rw [show flags / 0x1000000 % 0x80 = 0 by omega, Nat.zero_testBit,
        decide_eq_true (show bit - 24 < 7 by omega), Nat.add_sub_cancel' least] at clear
      exact clear.symm
  · intro clear
    have lower : flags % 0x10000 = 0 := by
      apply Nat.eq_of_testBit_eq
      intro bit
      rw [low, Nat.zero_testBit, Bool.and_eq_false_imp]
      intro below
      exact clear bit (.inl (of_decide_eq_true below))
    have upper : flags / 0x1000000 % 0x80 = 0 := by
      apply Nat.eq_of_testBit_eq
      intro bit
      rw [high, Nat.zero_testBit, Bool.and_eq_false_imp]
      intro below
      have bound := of_decide_eq_true below
      exact clear (24 + bit) (.inr ⟨by omega, by omega⟩)
    omega

/-- A payload cut where its words end. -/
theorem cut (whole : payload.length = 16) :
    ∃ flags low middle high, payload = flags ++ low ++ middle ++ high ∧
      flags.length = 4 ∧ low.length = 4 ∧ middle.length = 4 ∧ high.length = 4 := by
  refine ⟨payload.take 4, (payload.drop 4).take 4, ((payload.drop 4).drop 4).take 4,
    ((payload.drop 4).drop 4).drop 4, ?_, ?_, ?_, ?_, ?_⟩
  · rw [List.append_assoc, List.append_assoc, List.take_append_drop, List.take_append_drop,
      List.take_append_drop]
  all_goals
    simp only [List.length_take, List.length_drop]
    omega

theorem ofWords_eq_ok_iff : ofWords words = .ok number ↔
    (words.flags / 0x10000 % 0x100 ≤ maxScale ∧
      words.flags % 0x10000 + words.flags / 0x1000000 % 0x80 = 0) ∧
    number = ofParts (words.flags / 0x80000000 = 1) (words.flags / 0x10000 % 0x100)
      (words.low + words.middle * 0x100000000 + words.high * 0x10000000000000000) := by
  rw [ofWords]
  constructor
  · intro ok
    split at ok
    · rename_i checked
      cases ok
      exact ⟨checked, rfl⟩
    · cases ok
  · rintro ⟨checked, rfl⟩
    rw [if_pos checked]

/-- Four words of 32 bits. -/
structure BoundedWords (words : DecimalWords) : Prop where
  flags : words.flags < 0x100000000
  low : words.low < 0x100000000
  middle : words.middle < 0x100000000
  high : words.high < 0x100000000

/-- The number that words denote is a decimal number. -/
theorem valid_of_ofWords (bounded : BoundedWords words) (ok : ofWords words = .ok number) :
    number.Valid := by
  obtain ⟨⟨short, _⟩, rfl⟩ := ofWords_eq_ok_iff.1 ok
  rcases bounded with ⟨_, low, middle, high⟩
  refine ⟨short, ?_, ?_⟩
  · simp only [ofParts]
    omega
  · intro zero
    simp only [ofParts] at zero ⊢
    rw [zero, bne_self_eq_false, Bool.and_false]

/-- The number that words denote has these words, except that a zero has no sign. -/
theorem words_of_ofWords (bounded : BoundedWords words) (ok : ofWords words = .ok number) :
    number.words =
      if words.low = 0 ∧ words.middle = 0 ∧ words.high = 0 then
        { words with flags := words.flags % 0x80000000 }
      else words := by
  obtain ⟨⟨_, unused⟩, rfl⟩ := ofWords_eq_ok_iff.1 ok
  rcases words with ⟨flags, low, middle, high⟩
  rcases bounded with ⟨bound, bound', bound'', last⟩
  dsimp only at unused bound bound' bound'' last ⊢
  generalize whole : low + middle * 0x100000000 + high * 0x10000000000000000 = mantissa
  have first : mantissa % 0x100000000 = low := by omega
  have second : mantissa / 0x100000000 % 0x100000000 = middle := by omega
  have third : mantissa / 0x10000000000000000 = high := by omega
  simp only [Decimal.words, ofParts, first, second, third, Bool.and_eq_true, bne_iff_ne, ne_eq,
    decide_eq_true_eq]
  by_cases zero : low = 0 ∧ middle = 0 ∧ high = 0
  · rw [if_neg (by omega), if_pos zero]
    congr 1
    omega
  · rw [if_neg zero]
    congr 1
    by_cases minus : flags / 0x80000000 = 1
    · rw [if_pos ⟨minus, by omega⟩]
      omega
    · rw [if_neg (by omega)]
      omega

/-- The payloads that are read as a number are those that stand for one. -/
theorem exists_ofPayload_iff (whole : payload.length = 16) :
    (∃ number, ofPayload payload = .ok number) ↔ IsPayload payload := by
  obtain ⟨flags, low, middle, high, rfl, four, four', four'', last⟩ := cut whole
  have front : payloadFlags (flags ++ low ++ middle ++ high) = BigEndian.decode flags.reverse := by
    rw [payloadFlags, List.append_assoc, List.append_assoc, List.take_left' four, Memory.word_eq]
  simp only [ofPayload_append four four' four'' last, ofWords_eq_ok_iff, exists_and_left,
    exists_eq, and_true, unused_eq_zero_iff, ← front]
  constructor
  · rintro ⟨scale, unused⟩
    exact ⟨whole, scale, unused⟩
  · rintro ⟨_, scale, unused⟩
    exact ⟨scale, unused⟩

/-- A payload with the sign taken from a zero, which is the mantissa in the last twelve bytes. -/
def signless (payload : Bytes) : Bytes :=
  if payload.drop 4 = List.replicate 12 0 then payload.set 3 0 else payload

/-- A word without its greatest bit, where its last byte holds no other. -/
theorem image_mod {flags : Bytes} (four : flags.length = 4)
    (unused : Memory.word flags / 0x1000000 % 0x80 = 0) :
    Memory.image 4 (Memory.word flags % 0x80000000) = flags.set 3 0 := by
  rcases flags with _ | ⟨first, _ | ⟨second, _ | ⟨third, _ | ⟨sign, _ | _⟩⟩⟩⟩ <;> cases four
  have same : Memory.word [first, second, third, sign] % 0x80000000 =
      Memory.word [first, second, third, 0] := by
    have bounds := And.intro first.toNat_lt (And.intro second.toNat_lt third.toNat_lt)
    have zero : (0 : UInt8).toNat = 0 := rfl
    simp only [Memory.word] at unused ⊢
    omega
  rw [same]
  exact Memory.image_word [first, second, third, 0]

/-- A number is written as the payload that it was read from, except that a zero has no sign. -/
theorem payload_of_ofPayload (whole : payload.length = 16) (ok : ofPayload payload = .ok number) :
    number.Valid ∧ number.payload = signless payload := by
  obtain ⟨flags, low, middle, high, rfl, four, four', four'', last⟩ := cut whole
  have bound {bytes : Bytes} (four : bytes.length = 4) : Memory.word bytes < 0x100000000 := by
    have bound := Memory.word_lt bytes
    rwa [four] at bound
  have back {bytes : Bytes} (four : bytes.length = 4) :
      Memory.image 4 (Memory.word bytes) = bytes := by
    have back := Memory.image_word bytes
    rwa [four] at back
  rw [ofPayload_append four four' four'' last] at ok
  simp only [← Memory.word_eq] at ok
  have bounded : BoundedWords ⟨Memory.word flags, Memory.word low, Memory.word middle,
    Memory.word high⟩ := ⟨bound four, bound four', bound four'', bound last⟩
  refine ⟨valid_of_ofWords bounded ok, ?_⟩
  have zero : (flags ++ low ++ middle ++ high).drop 4 = List.replicate 12 0 ↔
      Memory.word low = 0 ∧ Memory.word middle = 0 ∧ Memory.word high = 0 := by
    have twelve : (low ++ (middle ++ high)).length = 12 := by
      simp only [List.length_append, four', four'', last]
    rw [List.append_assoc, List.append_assoc, List.drop_left' four, ← twelve,
      ← Memory.word_eq_zero_iff, Memory.word_append, Memory.word_append, four', four'']
    simp only [BigEndian.capacity]
    omega
  rw [← image_eq, image, words_of_ofWords bounded ok, signless]
  by_cases none : Memory.word low = 0 ∧ Memory.word middle = 0 ∧ Memory.word high = 0
  · rw [if_pos none, if_pos (zero.2 none)]
    have unused := (ofWords_eq_ok_iff.1 ok).1.2
    have front := image_mod four (Nat.eq_zero_of_add_eq_zero_left unused)
    simp only [List.flatMap_cons, List.flatMap_nil, front, back four', back four'', back last,
      List.append_nil, List.append_assoc]
    rw [List.set_append_left 3 0 (by omega)]
  · rw [if_neg none, if_neg (mt zero.1 none)]
    simp only [List.flatMap_cons, List.flatMap_nil, back four, back four', back four'', back last,
      List.append_nil, List.append_assoc]

end Decimal

/-! ## Exactness -/

namespace Read

variable {payload : Bytes} {number : Decimal}

/-- Decimal numbers are accepted in all forms of an extension of their code, if the payload is
one of sixteen bytes that stands for a number. -/
theorem acceptsExtension_decimal : AcceptsExtension decimal ExtensionCode.decimal
    fun payload number => payload.length = 16 ∧ Decimal.ofPayload payload = .ok number := by
  refine ((acceptsExtension_headerThen ExtensionCode.decimal fun header =>
    .guarded (fun whole => .fixed_of_eq whole) _).checked Decimal.ofPayload).congr ?_
  intro payload number
  constructor
  · rintro ⟨whole, ok⟩
    exact ⟨payload, ⟨whole, rfl⟩, ok⟩
  · rintro ⟨_, ⟨whole, rfl⟩, ok⟩
    exact ⟨whole, ok⟩

end Read

namespace Codec

/-- The codecs that copy records, each with its type. -/
inductive Copied : Scalar → Codec → Prop where
  | guid : Copied .guid guidImage
  | decimal : Copied .decimal decimalImage

variable {type : Scalar} {codec : Codec} {content : Atom}

theorem Copied.eq_usual (copied : Copied type codec) : codec = usual type := by
  cases copied with
  | guid => exact guidImage_eq
  | decimal => exact decimalImage_eq

/-- A value of a type with such a codec is written as an extension of sixteen bytes, and is read
from what was written. -/
theorem Copied.roundTrip (copied : Copied type codec) (holds : type.Holds content) :
    ∃ typeCode payload, payload.length = 16 ∧
      type.image content = .extension typeCode payload ∧
      (∀ writer, codec.write (.atom content) writer =
        .ok () (writer.append (MsgPack.extensionHeader typeCode 16 ++ payload))) ∧
      Read.Takes 0 codec.read (MsgPack.extensionHeader typeCode 16 ++ payload)
        (.atom content) := by
  have shape : type.Covered ∧ ∃ typeCode payload, payload.length = 16 ∧
      type.image content = .extension typeCode payload ∧
        (∀ value, content ≠ .value value) ∧ content.restored = content := by
    cases copied <;> cases content <;> first | exact holds.elim | skip
    case guid.bytes content =>
        exact ⟨trivial, _, _, GuidFields.length_payload holds, rfl, nofun, rfl⟩
    case decimal.decimal number =>
        exact ⟨trivial, _, _, number.length_payload, rfl, nofun, rfl⟩
  obtain ⟨covered, typeCode, payload, whole, image, other, same⟩ := shape
  have fits : (Value.extension typeCode payload).Fits := by
    rw [Value.Fits, Value.FitsLength]
    omega
  have encoding : (type.image content).encoding =
      MsgPack.extensionHeader typeCode 16 ++ payload := by
    rw [image, Value.encoding, whole]
  have takes := Scalar.takes_image covered holds (image ▸ fits)
    fun value same => (other value same).elim
  rw [encoding, image, same] at takes
  rw [copied.eq_usual]
  refine ⟨typeCode, payload, whole, image, ?_, takes.mapped Datum.atom⟩
  intro writer
  have write := Scalar.write_eq covered holds
  rw [Value.write_of_fits (image ▸ fits), encoding] at write
  exact congrFun write writer

/-- The codecs that copy the records of identifiers and decimal numbers as they lie in memory do
the same to every writer and every reader as those that take the fields one by one: they append
the same bytes or fail in the same way, and return the same value or the same error with the
same reader.  What is written for a value is read as this value.  Where an extension stands, it
is accepted as a decimal number just if it has the code of these and its payload has sixteen
bytes whose flags hold a scale of at most 28 and a sign and nothing else; just the extension is
passed over, and the number is written again as the same payload, except that a zero loses its
sign. -/
theorem copied_exact :
    (∀ type codec, Copied type codec →
      (∀ datum writer, codec.write datum writer = (usual type).write datum writer) ∧
      (∀ reader, codec.read reader = (usual type).read reader) ∧
      ∀ content, type.Holds content → ∃ bytes,
        (∀ writer, codec.write (.atom content) writer = .ok () (writer.append bytes)) ∧
          Read.Takes 0 codec.read bytes (.atom content)) ∧
    ∀ (typeCode : Int8) (payload bytes rest : Bytes) (reader : Reader),
      (Content.extension typeCode payload).Stands bytes →
      reader.cursor.unread = bytes ++ rest →
        ((∃ datum after, (usual .decimal).read reader = .ok datum after) ↔
          typeCode = ExtensionCode.decimal ∧ Decimal.IsPayload payload) ∧
        ∀ datum after, (usual .decimal).read reader = .ok datum after →
          reader.Passed bytes after ∧
          (∃ number, datum = .atom (.decimal number) ∧ number.Valid) ∧
          ∀ writer, (usual .decimal).write datum writer = .ok () (writer.append
            (MsgPack.extensionHeader ExtensionCode.decimal 16 ++ Decimal.signless payload)) := by
  refine ⟨?same, ?decimal⟩
  case same =>
    intro type codec copied
    refine ⟨?_, ?_, ?_⟩
    · intro datum writer
      rw [copied.eq_usual]
    · intro reader
      rw [copied.eq_usual]
    · intro content holds
      obtain ⟨_, _, _, _, written, takes⟩ := copied.roundTrip holds
      exact ⟨_, written, takes⟩
  case decimal =>
    intro typeCode payload bytes rest reader stands unread
    have accepted : Read.AcceptsExtension (usual .decimal).read ExtensionCode.decimal
        fun payload datum => ∃ number, (payload.length = 16 ∧
          Decimal.ofPayload payload = .ok number) ∧ datum = .atom (.decimal number) := by
      have read : (usual .decimal).read = (return .atom (.decimal (← Read.decimal))) := by
        simp only [usual, ofScalar, Scalar.read, bind_assoc, pure_bind]
      rw [read]
      exact Read.acceptsExtension_decimal.mapped fun number => Datum.atom (.decimal number)
    constructor
    · rw [accepted.exists_ok_iff stands unread]
      constructor
      · rintro ⟨same, datum, number, ⟨whole, ok⟩, _⟩
        exact ⟨same, (Decimal.exists_ofPayload_iff whole).1 ⟨number, ok⟩⟩
      · rintro ⟨same, stands⟩
        obtain ⟨number, ok⟩ := (Decimal.exists_ofPayload_iff stands.whole).2 stands
        exact ⟨same, _, number, ⟨stands.whole, ok⟩, rfl⟩
    · intro datum after ok
      obtain ⟨_, ⟨number, ⟨whole, told⟩, rfl⟩, passed⟩ := accepted.of_stands stands unread ok
      obtain ⟨valid, again⟩ := Decimal.payload_of_ofPayload whole told
      have holds : Scalar.decimal.Holds (.decimal number) := valid
      obtain ⟨_, _, _, image, written, _⟩ := Copied.decimal.roundTrip holds
      cases image
      rw [← again, ← decimalImage_eq]
      exact ⟨passed, ⟨number, rfl, valid⟩, written⟩

/-- An identifier comes back, and a zero that has a sign is written again without it. -/
theorem copied_exact_of_zero :
    (∃ bytes, guidImage.write (.atom (.bytes (List.replicate 16 7))) .empty =
        .ok () (Writer.empty.append bytes) ∧
      Read.Takes 0 guidImage.read bytes (.atom (.bytes (List.replicate 16 7)))) ∧
    ∃ datum after, (usual .decimal).read
        (.ofBytes ([0xd8, 103, 0, 0, 3, 0x80] ++ List.replicate 12 0)) = .ok datum after ∧
      (usual .decimal).write datum .empty =
        .ok () (Writer.empty.append ([0xd8, 103, 0, 0, 3, 0] ++ List.replicate 12 0)) := by
  obtain ⟨copies, reads⟩ := copied_exact
  constructor
  · obtain ⟨_, _, back⟩ := copies .guid guidImage .guid
    obtain ⟨bytes, written, takes⟩ := back (.bytes (List.replicate 16 7)) rfl
    exact ⟨bytes, written .empty, takes⟩
  · have fits : (Value.extension ExtensionCode.decimal
        ([0, 0, 3, 0x80] ++ List.replicate 12 0)).Fits := show 16 < 0x100000000 by decide
    obtain ⟨accepted, told⟩ := reads _ _ _ [] (.ofBytes _) (Value.stands_extension fits)
      ((Cursor.unread_ofBytes _).trans (List.append_nil _).symm)
    have payload : Decimal.IsPayload ([0, 0, 3, 0x80] ++ List.replicate 12 0) := by
      refine ⟨rfl, by decide, (Decimal.unused_eq_zero_iff _).1 (by decide)⟩
    obtain ⟨datum, after, ok⟩ := accepted.2 ⟨rfl, payload⟩
    obtain ⟨_, _, again⟩ := told datum after ok
    exact ⟨datum, after, ok, again .empty⟩

end Codec

end MsgPack
