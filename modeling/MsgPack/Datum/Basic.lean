import MsgPack.Number.Decimal
import MsgPack.Schema.Name
import MsgPack.Time.Calendar
import MsgPack.Time.SystemTime
import MsgPack.Value.Basic

/-!
# Typed data

The values of the described types, in one type.  Wrappers around a single value leave no
trace: the datum of a boxed value is the datum of the value.  Integers of all ranges are
whole numbers, characters and text are Unicode, binary data and addresses are bytes.
-/

namespace MsgPack

/-- A value of a scalar type. -/
inductive Atom where
  | unit
  | bool (truth : Bool)
  | int (number : Int)
  | float32 (bits : UInt32)
  | float64 (bits : UInt64)
  | char (character : Char)
  | text (text : String)
  | bytes (bytes : Bytes)
  | value (value : Value)
  | timestamp (timestamp : Timestamp)
  | systemTime (time : SystemTime)
  | duration (duration : Duration)
  /-- The octets of a network address. -/
  | address (octets : Bytes)
  /-- A port at an address; a flow label and a scope stand beside an address of version six. -/
  | socket (octets : Bytes) (port flow scope : Nat)
  | instant (instant : Instant)
  | zoned (instant : ZonedInstant)
  | date (date : Date)
  | time (time : ClockTime)
  | decimal (decimal : Decimal)

/-- A value of any described type. -/
inductive Datum where
  | atom (atom : Atom)
  | none
  | some (item : Datum)
  /-- The items of a collection or a tuple; of a stack from the bottom up. -/
  | list (items : List Datum)
  /-- The dimensions of a two-dimensional array and its items, row by row. -/
  | grid (rows columns : Nat) (items : List Datum)
  | map (entries : List (Datum × Datum))
  /-- All fields of a record, those that are never written included. -/
  | record (fields : List Datum)
  /-- The number of a variant and all its fields. -/
  | variant (index : Nat) (fields : List Datum)
  /-- A value together with its type. -/
  | typeless (type : Schema) (content : Datum)

/-! ## Initial values

The value that a field takes when it is never written, or may be missing and is. -/

/-- The initial value of a scalar type. -/
def Scalar.initial : Scalar → Atom
  | .unit => .unit
  | .bool => .bool false
  | .int _ => .int 0
  | .float32 => .float32 0
  | .float64 => .float64 0
  | .char => .char (Char.ofNat 0)
  | .string | .smallString => .text ""
  | .bytes | .byteBuffer => .bytes []
  | .value => .value .nil
  | .timestamp => .timestamp (.ofSeconds 0)
  | .systemTime => .systemTime .epoch
  | .duration => .duration ⟨0, 0, nanosecondsPerSecond_pos⟩
  | .ipv4 | .ip => .address (List.replicate 4 0)
  | .ipv6 => .address (List.replicate 16 0)
  | .socket => .socket (List.replicate 4 0) 0 0 0
  | .utcDateTime | .plainDateTime => .instant ⟨0, 0⟩
  | .offsetDateTime => .zoned ⟨⟨0, 0⟩, 0⟩
  | .date => .date ⟨1970, 1, 1⟩
  | .time => .time ⟨0, 0⟩
  | .guid => .bytes (List.replicate 16 0)
  | .decimal => .decimal ⟨false, 0, 0⟩

namespace Schema

mutual

/-- The initial value of a type, where `ofName` gives those of named types. -/
def initial (ofName : String → Datum) : Schema → Datum
  | .scalar type => .atom type.initial
  | .typeless => .typeless (.scalar .value) (.atom (.value .nil))
  | .option _ => .none
  | .boxed item | .shared item => initial ofName item
  | .sequence _ _ => .list []
  | .array length item => .list (List.replicate length (initial ofName item))
  | .grid _ => .grid 0 0 []
  | .map _ _ _ => .map []
  | .tuple items => .list (initials ofName items)
  | .named name => ofName name

/-- The initial values of types. -/
def initials (ofName : String → Datum) : List Schema → List Datum
  | [] => []
  | item :: items => initial ofName item :: initials ofName items

end

end Schema

end MsgPack
