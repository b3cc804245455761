import MsgPack.Float.Binary
import MsgPack.Integer
import MsgPack.Wire.Format

/-!
# Values of any shape

A value of the wire whose type is not known beforehand.  An integer is kept as negative or
not negative whatever its width on the wire was, so equal numbers are equal values; maps
keep their entries in order, repeated keys included.
-/

namespace MsgPack

/-- A value of the wire. -/
inductive Value where
  | nil
  | bool (truth : Bool)
  /-- An integer that was given as signed; a negative one when it comes off the wire. -/
  | int (word : Int64)
  | uint (word : UInt64)
  | float32 (bits : UInt32)
  | float64 (bits : UInt64)
  | string (text : String)
  | binary (bytes : Bytes)
  | array (items : List Value)
  | map (entries : List (Value × Value))
  | extension (typeCode : Int8) (payload : Bytes)
  deriving Inhabited

namespace Value

/-- The value of an integer off the wire: unsigned unless it is negative. -/
def ofInteger : Integer → Value
  | .unsigned word => uint word
  | .signed word => if 0 ≤ word then uint word.toUInt64 else int word

/-- The value of a number of a range: unsigned unless it is negative. -/
def ofInt (number : Int) : Value :=
  if number < 0 then int (Int64.ofInt number) else uint (UInt64.ofNat number.toNat)

/-! ## Looking inside -/

/-- Whether a value is nil. -/
def isNil : Value → Bool
  | nil => true
  | _ => false

/-- The truth value. -/
def bool? : Value → Option Bool
  | bool truth => some truth
  | _ => none

/-- The unsigned integer. -/
def uint? : Value → Option UInt64
  | uint word => some word
  | _ => none

/-- The integer, if it is one of 64 bits with a sign. -/
def int? : Value → Option Int64
  | int word => some word
  | uint word => if word.toNat < 0x8000000000000000 then some word.toInt64 else none
  | _ => none

/-- The floating point number as a double. -/
def float64? : Value → Option UInt64
  | float32 bits => some (Float.widen bits)
  | float64 bits => some bits
  | _ => none

/-- The text. -/
def string? : Value → Option String
  | string text => some text
  | _ => none

/-- The binary data. -/
def binary? : Value → Option Bytes
  | binary bytes => some bytes
  | _ => none

/-- The items of an array. -/
def array? : Value → Option (List Value)
  | array items => some items
  | _ => none

/-- The entries of a map. -/
def map? : Value → Option (List (Value × Value))
  | map entries => some entries
  | _ => none

/-- The first value that a map has under a text. -/
def get? (value : Value) (key : String) : Option Value := do
  let entries ← value.map?
  let entry ← entries.find? fun entry => entry.1.string? == some key
  return entry.2

/-- The kind a value is written as. -/
def kind : Value → Kind
  | nil => .nil
  | bool _ => .boolean
  | int _ | uint _ => .integer
  | float32 _ | float64 _ => .float
  | string _ => .string
  | binary _ => .binary
  | array _ => .array
  | map _ => .map
  | extension _ _ => .extension

/-! ## Equality of numbers

Values compare by their shape and content.  Floating point numbers compare as numbers, so a
not-a-number makes any value that holds it differ from itself. -/

mutual

/-- Whether two values are equal. -/
def equal : Value → Value → Bool
  | nil, nil => true
  | bool left, bool right => left == right
  | int left, int right => left == right
  | uint left, uint right => left == right
  | float32 left, float32 right => BinaryFormat.single.equal left.toNat right.toNat
  | float64 left, float64 right => BinaryFormat.double.equal left.toNat right.toNat
  | string left, string right => left == right
  | binary left, binary right => left == right
  | array left, array right => equalItems left right
  | map left, map right => equalEntries left right
  | extension leftCode left, extension rightCode right => leftCode == rightCode && left == right
  | _, _ => false

/-- Whether two arrays are equal. -/
def equalItems : List Value → List Value → Bool
  | [], [] => true
  | left :: lefts, right :: rights => equal left right && equalItems lefts rights
  | _, _ => false

/-- Whether two maps have equal entries in the same order. -/
def equalEntries : List (Value × Value) → List (Value × Value) → Bool
  | [], [] => true
  | (leftKey, left) :: lefts, (rightKey, right) :: rights =>
      equal leftKey rightKey && equal left right && equalEntries lefts rights
  | _, _ => false

end

end Value

end MsgPack
