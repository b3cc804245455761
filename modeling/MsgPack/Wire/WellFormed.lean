import MsgPack.Wire.BigEndian

/-!
# Well-formed bytes

Which bytes are values, said without reading them.  A code announces what belongs to its
value: a number of bytes that the code fixes, a number of bytes that a big-endian length
gives, or a number of values.  Pairs of a map count as two values.  The code `0xc1`
announces nothing.

`WellFormed` follows a row of values from its first byte to its last; the limit on how deep
arrays and maps may be nested goes down on the way inside.
-/

namespace MsgPack

/-! ## What a code announces -/

/-- Codes that a fixed number of bytes follows. -/
inductive FixedSize : UInt8 → Nat → Prop where
  | positiveFixInt {code : UInt8} (low : code < 0x80) : FixedSize code 0
  | fixStr {code : UInt8} (low : 0xa0 ≤ code) (high : code < 0xc0) :
      FixedSize code (code - 0xa0).toNat
  | nil : FixedSize 0xc0 0
  | false : FixedSize 0xc2 0
  | true : FixedSize 0xc3 0
  | float32 : FixedSize 0xca 4
  | float64 : FixedSize 0xcb 8
  | uint8 : FixedSize 0xcc 1
  | uint16 : FixedSize 0xcd 2
  | uint32 : FixedSize 0xce 4
  | uint64 : FixedSize 0xcf 8
  | int8 : FixedSize 0xd0 1
  | int16 : FixedSize 0xd1 2
  | int32 : FixedSize 0xd2 4
  | int64 : FixedSize 0xd3 8
  | fixExt1 : FixedSize 0xd4 2
  | fixExt2 : FixedSize 0xd5 3
  | fixExt4 : FixedSize 0xd6 5
  | fixExt8 : FixedSize 0xd7 9
  | fixExt16 : FixedSize 0xd8 17
  | negativeFixInt {code : UInt8} (high : 0xe0 ≤ code) : FixedSize code 0

/-- Codes that a length of some width follows, and then as many bytes as the length says
and some more. -/
inductive LengthGiven : UInt8 → Nat → Nat → Prop where
  | bin8 : LengthGiven 0xc4 1 0
  | bin16 : LengthGiven 0xc5 2 0
  | bin32 : LengthGiven 0xc6 4 0
  | ext8 : LengthGiven 0xc7 1 1
  | ext16 : LengthGiven 0xc8 2 1
  | ext32 : LengthGiven 0xc9 4 1
  | str8 : LengthGiven 0xd9 1 0
  | str16 : LengthGiven 0xda 2 0
  | str32 : LengthGiven 0xdb 4 0

/-- Headers of arrays and maps, and how many values follow them. -/
inductive Opens : Bytes → Nat → Prop where
  | fixMap {code : UInt8} (low : 0x80 ≤ code) (high : code < 0x90) :
      Opens [code] ((code - 0x80).toNat * 2)
  | fixArray {code : UInt8} (low : 0x90 ≤ code) (high : code < 0xa0) :
      Opens [code] (code - 0x90).toNat
  | array16 {count : Bytes} (whole : count.length = 2) :
      Opens (0xdc :: count) (BigEndian.decode count)
  | array32 {count : Bytes} (whole : count.length = 4) :
      Opens (0xdd :: count) (BigEndian.decode count)
  | map16 {count : Bytes} (whole : count.length = 2) :
      Opens (0xde :: count) (BigEndian.decode count * 2)
  | map32 {count : Bytes} (whole : count.length = 4) :
      Opens (0xdf :: count) (BigEndian.decode count * 2)

/-- A header has at least its code. -/
theorem Opens.length_pos {header : Bytes} {count : Nat} (opens : Opens header count) :
    0 < header.length := by
  cases opens <;> exact Nat.succ_pos _

/-! ## Rows of values -/

/-- Bytes that are `count` values in a row, with arrays and maps nested at most `levels`
deep. -/
inductive WellFormed : (levels count : Nat) → Bytes → Prop where
  | done {levels : Nat} : WellFormed levels 0 []
  /-- A value whose size the code fixes, and the values after it. -/
  | fixed {levels count : Nat} {code : UInt8} {payload rest : Bytes}
      (announced : FixedSize code payload.length) (others : WellFormed levels count rest) :
      WellFormed levels (count + 1) (code :: payload ++ rest)
  /-- A value whose size a length gives, and the values after it. -/
  | sized {levels count extra : Nat} {code : UInt8} {length payload rest : Bytes}
      (announced : LengthGiven code length.length extra)
      (whole : payload.length = BigEndian.decode length + extra)
      (others : WellFormed levels count rest) :
      WellFormed levels (count + 1) (code :: length ++ payload ++ rest)
  /-- An array or a map with the values inside it, and the values after it. -/
  | opened {levels count inner : Nat} {header inside rest : Bytes}
      (announced : Opens header inner) (nested : WellFormed levels inner inside)
      (others : WellFormed (levels + 1) count rest) :
      WellFormed (levels + 1) (count + 1) (header ++ inside ++ rest)

namespace WellFormed

/-- Rows of values one after the other are a row of values. -/
theorem append {levels first second : Nat} {left right : Bytes}
    (before : WellFormed levels first left) (after : WellFormed levels second right) :
    WellFormed levels (first + second) (left ++ right) := by
  induction before with
  | done => simpa using after
  | fixed announced _ ih =>
      have joined := ih after
      rw [Nat.succ_add, List.append_assoc]
      exact fixed announced joined
  | sized announced whole _ ih =>
      have joined := ih after
      rw [Nat.succ_add, List.append_assoc]
      exact sized announced whole joined
  | opened announced nested _ _ ih =>
      have joined := ih after
      rw [Nat.succ_add, List.append_assoc]
      exact opened announced nested joined

/-- A higher limit allows what a lower one does. -/
theorem mono {levels more count : Nat} {bytes : Bytes} (given : WellFormed levels count bytes)
    (le : levels ≤ more) : WellFormed more count bytes := by
  induction given generalizing more with
  | done => exact done
  | fixed announced _ ih => exact fixed announced (ih le)
  | sized announced whole _ ih => exact sized announced whole (ih le)
  | opened announced _ _ inside others =>
      obtain ⟨further, rfl⟩ : ∃ further, more = further + 1 := ⟨more - 1, by omega⟩
      exact opened announced (inside (by omega)) (others le)

/-- Every value has at least one byte. -/
theorem count_le_length {levels count : Nat} {bytes : Bytes}
    (given : WellFormed levels count bytes) : count ≤ bytes.length := by
  induction given with
  | done => exact Nat.le_refl 0
  | fixed _ _ ih =>
      simp only [List.length_append, List.length_cons]
      omega
  | sized _ _ _ ih =>
      simp only [List.length_append, List.length_cons]
      omega
  | opened announced _ _ _ ih =>
      have present := announced.length_pos
      simp only [List.length_append]
      omega

end WellFormed

end MsgPack
