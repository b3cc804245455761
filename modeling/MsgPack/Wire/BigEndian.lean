/-!
# Numbers as bytes

Natural and whole numbers as a fixed number of bytes, most significant byte first, and back.
A whole number is written in two's complement.  The statements say that reading undoes
writing modulo the capacity of the bytes, and that a string of bytes is determined by its
length and value.  The few numbers that are stored with their least significant byte first
are the same bytes in reverse.
-/

namespace MsgPack

/-- A string of bytes. -/
abbrev Bytes := List UInt8

namespace BigEndian

/-- How many numbers `count` bytes can denote. -/
def capacity : Nat → Nat
  | 0 => 1
  | count + 1 => 256 * capacity count

/-- The number that the bytes denote after those of `high`. -/
def decodeFrom (high : Nat) (bytes : Bytes) : Nat :=
  bytes.foldl (fun number byte => number * 256 + byte.toNat) high

/-- The number that bytes denote. -/
def decode (bytes : Bytes) : Nat :=
  decodeFrom 0 bytes

/-- The last `count` bytes of a number. -/
def encode : Nat → Nat → Bytes
  | 0, _ => []
  | count + 1, number => UInt8.ofNat (number / capacity count) :: encode count number

/-- The whole number that bytes denote in two's complement. -/
def decodeSigned (bytes : Bytes) : Int :=
  if 2 * decode bytes < capacity bytes.length then decode bytes
  else (decode bytes : Int) - capacity bytes.length

/-- The two's complement of a whole number in `count` bytes. -/
def encodeSigned (count : Nat) (number : Int) : Bytes :=
  encode count (number % capacity count).toNat

theorem capacity_pos (count : Nat) : 0 < capacity count := by
  induction count with
  | zero => exact Nat.one_pos
  | succ count ih => exact Nat.mul_pos (by decide) ih

@[simp]
theorem length_encode (count number : Nat) : (encode count number).length = count := by
  induction count with
  | zero => rfl
  | succ count ih => simp [encode, ih]

@[simp]
theorem length_encodeSigned (count : Nat) (number : Int) :
    (encodeSigned count number).length = count :=
  length_encode count _

theorem decodeFrom_cons (high : Nat) (byte : UInt8) (bytes : Bytes) :
    decodeFrom high (byte :: bytes) = decodeFrom (high * 256 + byte.toNat) bytes :=
  rfl

/-- Earlier bytes count for the capacity of the later ones. -/
theorem decodeFrom_eq (high : Nat) (bytes : Bytes) :
    decodeFrom high bytes = high * capacity bytes.length + decode bytes := by
  induction bytes generalizing high with
  | nil => simp [decodeFrom, decode, capacity]
  | cons byte bytes ih =>
      rw [decode, decodeFrom_cons, decodeFrom_cons, ih, ih (0 * 256 + byte.toNat)]
      simp only [List.length_cons, capacity, Nat.add_mul]
      grind

theorem decode_cons (byte : UInt8) (bytes : Bytes) :
    decode (byte :: bytes) = byte.toNat * capacity bytes.length + decode bytes := by
  rw [decode, decodeFrom_cons, decodeFrom_eq]
  simp

/-- Bytes denote a number below the capacity of their length. -/
theorem decode_lt (bytes : Bytes) : decode bytes < capacity bytes.length := by
  induction bytes with
  | nil => exact Nat.one_pos
  | cons byte bytes ih =>
      have byteBound := byte.toNat_lt
      rw [decode_cons, List.length_cons, capacity]
      calc byte.toNat * capacity bytes.length + decode bytes
          < byte.toNat * capacity bytes.length + capacity bytes.length := by omega
        _ = (byte.toNat + 1) * capacity bytes.length := by grind
        _ ≤ 256 * capacity bytes.length := Nat.mul_le_mul_right _ (by omega)

/-- Reading undoes writing, up to the width. -/
theorem decode_encode (count number : Nat) :
    decode (encode count number) = number % capacity count := by
  induction count with
  | zero => simp [encode, decode, decodeFrom, capacity, Nat.mod_one]
  | succ count ih =>
      have digit :
          (UInt8.ofNat (number / capacity count)).toNat = number / capacity count % 256 := by
        simp
      rw [encode, decode_cons, ih, length_encode, digit, capacity,
        Nat.mul_comm 256 (capacity count), Nat.mod_mul, Nat.mul_comm (capacity count),
        Nat.add_comm]

/-- Writing undoes reading. -/
theorem encode_decode (bytes : Bytes) : encode bytes.length (decode bytes) = bytes := by
  have shift (count high low : Nat) :
      encode count (high * capacity count + low) = encode count low := by
    induction count generalizing high with
    | zero => rfl
    | succ count ih =>
        have split :
            high * capacity (count + 1) + low = (high * 256) * capacity count + low := by
          rw [capacity]; grind
        rw [encode, encode, split, ih]
        congr 1
        apply UInt8.toNat_inj.1
        rw [UInt8.toNat_ofNat', UInt8.toNat_ofNat', Nat.mul_comm (high * 256),
          Nat.mul_add_div (capacity_pos count)]
        omega
  induction bytes with
  | nil => rfl
  | cons byte bytes ih =>
      have bound := decode_lt bytes
      rw [List.length_cons, encode, decode_cons, shift, ih]
      congr 1
      apply UInt8.toNat_inj.1
      have byteBound := byte.toNat_lt
      rw [UInt8.toNat_ofNat', Nat.mul_comm, Nat.mul_add_div (capacity_pos bytes.length),
        Nat.div_eq_of_lt bound]
      omega

end BigEndian

end MsgPack
