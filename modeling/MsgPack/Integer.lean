import MsgPack.Wire.BigEndian

/-!
# Integers and their ranges

An integer comes off the wire as an unsigned or a signed word of 64 bits and is then fitted
into the range that the reader asked for.  Fitting never changes the number: it answers with
the same number or not at all.
-/

namespace MsgPack

/-- The ranges of integers that values are read into. -/
inductive IntRange where
  | u8
  | u16
  | u32
  | u64
  | i8
  | i16
  | i32
  | i64
  | usize
  | isize
  deriving DecidableEq, Repr

namespace IntRange

/-- The name of a range in reports. -/
def name : IntRange → String
  | u8 => "u8"
  | u16 => "u16"
  | u32 => "u32"
  | u64 => "u64"
  | i8 => "i8"
  | i16 => "i16"
  | i32 => "i32"
  | i64 => "i64"
  | usize => "usize"
  | isize => "isize"

/-- The least number of a range. -/
def min : IntRange → Int
  | u8 | u16 | u32 | u64 | usize => 0
  | i8 => -0x80
  | i16 => -0x8000
  | i32 => -0x80000000
  | i64 | isize => -0x8000000000000000

/-- The greatest number of a range. -/
def max : IntRange → Int
  | u8 => 0xff
  | u16 => 0xffff
  | u32 => 0xffffffff
  | u64 | usize => 0xffffffffffffffff
  | i8 => 0x7f
  | i16 => 0x7fff
  | i32 => 0x7fffffff
  | i64 | isize => 0x7fffffffffffffff

/-- The numbers of a range. -/
def Contains (range : IntRange) (number : Int) : Prop :=
  range.min ≤ number ∧ number ≤ range.max

instance (range : IntRange) (number : Int) : Decidable (range.Contains number) :=
  inferInstanceAs (Decidable (_ ∧ _))

end IntRange

/-- An integer as the wire gives it: a word of 64 bits, unsigned or in two's complement. -/
inductive Integer where
  | unsigned (word : UInt64)
  | signed (word : Int64)
  deriving DecidableEq

namespace Integer

/-- The number itself. -/
def toInt : Integer → Int
  | unsigned word => word.toNat
  | signed word => word.toInt

/-- The number, if the range contains it. -/
def fit? (integer : Integer) (range : IntRange) : Option Int :=
  if range.Contains integer.toInt then some integer.toInt else none

theorem fit?_eq_some_iff {integer : Integer} {range : IntRange} {number : Int} :
    integer.fit? range = some number ↔ number = integer.toInt ∧ range.Contains number := by
  unfold fit?
  split
  · rename_i contained
    constructor
    · intro found
      cases found
      exact ⟨rfl, contained⟩
    · rintro ⟨rfl, _⟩
      rfl
  · rename_i excluded
    constructor
    · intro found
      cases found
    · rintro ⟨rfl, contained⟩
      exact absurd contained excluded

end Integer

end MsgPack
